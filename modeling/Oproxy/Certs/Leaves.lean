import Oproxy.Lib.Run
import Oproxy.Lib.Text

/-!
# Certificates for intercepted hosts (`certs/mod.rs`)

A certificate is issued when a host is intercepted for the first time and kept in a cache.  The look-up, the issue and
the insertion are three steps of a caller, and the steps of any number of callers come in any order while the clock goes
on.  A certificate is handed out as long as it is in the cache, which does not look at its validity.
-/

namespace Oproxy

namespace Certs

def maxCertCacheEntries : Nat := 1024

/-- Days in nanoseconds, as all times are. -/
def days (n : Int) : Int := n * 86400000000000

def validityClockSkewBuffer : Int := days 1

def leafCertValidityDays : Int := 397

/-- A window which starts just before now. -/
def validityWindow (validityDays now : Int) : Int × Int :=
  let notBefore := now - validityClockSkewBuffer
  (notBefore, notBefore + days validityDays)

/-- A certificate with its private key; `serial` tells two of them apart. -/
structure Leaf (Key : Type) where
  domain : Str
  issuer : Key
  issuedAt : Int
  window : Int × Int
  serial : Nat

/-- What is asked of the library: whether a name can stand in a certificate. -/
structure Authority (Key : Type) where
  rootKey : Key
  validName : Str → Bool

section

variable {Key : Type} (ca : Authority Key)

def issueDomainCertificate (domain : Str) (now : Int) (serial : Nat) : Option (Leaf Key) :=
  if ca.validName domain then
    some
      { domain := domain
        issuer := ca.rootKey
        issuedAt := now
        window := validityWindow leafCertValidityDays now
        serial := serial }
  else none

/-! ### The cache -/

abbrev CertCache (Key : Type) := List (Str × Leaf Key)

def cachedCertificate (cache : CertCache Key) (domain : Str) : Option (Leaf Key) :=
  (cache.find? fun entry => entry.1 = domain).map Prod.snd

/-- The entry which a full cache happens to start with makes room. -/
def evict (first : Nat) (cache : CertCache Key) : CertCache Key :=
  if cache.length ≥ maxCertCacheEntries then
    match cache[first % cache.length]? with
    | some (evicted, _) => cache.filter fun entry => entry.1 ≠ evicted
    | none => cache
  else cache

def cacheCertificate (domain : Str) (pair : Leaf Key) (first : Nat) (cache : CertCache Key) : CertCache Key :=
  ((evict first cache).filter fun entry => entry.1 ≠ domain) ++ [(domain, pair)]

/-! ### Callers -/

/-- A call of `get_certificate_for_domain` between two of its steps. -/
inductive Progress (Key : Type) where
  | idle
  | missed (domain : Str)
  | issued (domain : Str) (pair : Leaf Key)

/-- A certificate which was handed out. -/
structure Answer (Key : Type) where
  domain : Str
  pair : Leaf Key
  time : Int

structure State (Key : Type) where
  now : Int
  cache : CertCache Key
  callers : Nat → Progress Key
  answers : List (Answer Key)

inductive Event where
  /-- The clock goes on. -/
  | tick (elapsed : Nat)
  /-- A caller looks for the certificate of a name. -/
  | lookUp (caller : Nat) (domain : Str)
  | issue (caller serial : Nat)
  | insert (caller first : Nat)

def State.set (s : State Key) (caller : Nat) (progress : Progress Key) : State Key :=
  { s with callers := fun c => if c = caller then progress else s.callers c }

def State.answer (s : State Key) (domain : Str) (pair : Leaf Key) : State Key :=
  { s with answers := s.answers ++ [⟨domain, pair, s.now⟩] }

def step (s : State Key) : Event → State Key
  | .tick elapsed => { s with now := s.now + elapsed }
  | .lookUp caller domain =>
    match s.callers caller with
    | .idle =>
      match cachedCertificate s.cache domain with
      | some pair => s.answer domain pair
      | none => s.set caller (.missed domain)
    | _ => s
  | .issue caller serial =>
    match s.callers caller with
    | .missed domain =>
      match issueDomainCertificate ca domain s.now serial with
      | some pair => s.set caller (.issued domain pair)
      | none => s.set caller .idle
    | _ => s
  | .insert caller first =>
    match s.callers caller with
    | .issued domain pair =>
      { (s.answer domain pair).set caller .idle with cache := cacheCertificate domain pair first s.cache }
    | _ => s

def start (now : Int) : State Key where
  now := now
  cache := []
  callers := fun _ => .idle
  answers := []

/-! ### Usable certificates -/

/-- The certificate is for the name, of this authority and valid at the moment. -/
structure Usable (a : Answer Key) : Prop where
  domain : a.pair.domain = a.domain
  issuer : a.pair.issuer = ca.rootKey
  valid : a.pair.window.1 ≤ a.time ∧ a.time ≤ a.pair.window.2

structure Sound (s : State Key) : Prop where
  usable : ∀ a ∈ s.answers, Usable ca a
  bounded : s.cache.length ≤ maxCertCacheEntries

/-- What is handed out was issued at most 396 days ago. -/
def InTime (s : State Key) : Event → Prop
  | .lookUp caller domain =>
    match s.callers caller with
    | .idle => ∀ pair, cachedCertificate s.cache domain = some pair → s.now ≤ pair.issuedAt + days 396
    | _ => True
  | .insert caller _ =>
    match s.callers caller with
    | .issued _ pair => s.now ≤ pair.issuedAt + days 396
    | _ => True
  | _ => True

/-- A certificate that was issued for the name up to now. -/
structure Genuine (now : Int) (domain : Str) (pair : Leaf Key) : Prop where
  domain : pair.domain = domain
  issuer : pair.issuer = ca.rootKey
  window : pair.window = validityWindow leafCertValidityDays pair.issuedAt
  past : pair.issuedAt ≤ now

/-- What a caller has in hand. -/
def Progress.Genuine (now : Int) : Progress Key → Prop
  | .issued domain pair => Certs.Genuine ca now domain pair
  | _ => True

structure Inv (s : State Key) : Prop where
  cached : ∀ entry ∈ s.cache, Genuine ca s.now entry.1 entry.2
  callers : ∀ caller, (s.callers caller).Genuine ca s.now
  bounded : s.cache.length ≤ maxCertCacheEntries

variable {ca}

theorem Genuine.mono {now now' : Int} {domain : Str} {pair : Leaf Key} (h : Genuine ca now domain pair)
    (hle : now ≤ now') : Genuine ca now' domain pair :=
  ⟨h.domain, h.issuer, h.window, Int.le_trans h.past hle⟩

theorem Progress.Genuine.mono {now now' : Int} {progress : Progress Key} (h : progress.Genuine ca now)
    (hle : now ≤ now') : progress.Genuine ca now' := by
  cases progress with
  | issued domain pair => exact Certs.Genuine.mono h hle
  | idle | missed _ => trivial

theorem genuine_of_issue {domain : Str} {now : Int} {serial : Nat} {pair : Leaf Key}
    (h : issueDomainCertificate ca domain now serial = some pair) : Genuine ca now domain pair := by
  unfold issueDomainCertificate at h
  split at h
  · cases h
    exact ⟨rfl, rfl, rfl, Int.le_refl _⟩
  · cases h

theorem genuine_of_cached {s : State Key} (h : Inv ca s) {domain : Str} {pair : Leaf Key}
    (hcached : cachedCertificate s.cache domain = some pair) : Genuine ca s.now domain pair := by
  obtain ⟨entry, hentry, rfl⟩ := Option.map_eq_some_iff.1 hcached
  have hdomain := List.find?_some hentry
  rw [← of_decide_eq_true hdomain]
  exact h.cached entry (List.mem_of_find?_eq_some hentry)

/-- A genuine certificate is usable up to the end of its window. -/
theorem usable_iff {domain : Str} {pair : Leaf Key} {now : Int} (h : Genuine ca now domain pair) :
    Usable ca ⟨domain, pair, now⟩ ↔ now ≤ pair.issuedAt + days 396 := by
  have hpast := h.past
  have hvalid : (pair.window.1 ≤ now ∧ now ≤ pair.window.2) ↔ now ≤ pair.issuedAt + days 396 := by
    rw [h.window]
    simp only [validityWindow, validityClockSkewBuffer, leafCertValidityDays, days]
    omega
  exact ⟨fun husable => hvalid.1 husable.valid, fun hle => ⟨h.domain, h.issuer, hvalid.2 hle⟩⟩

theorem length_evict_lt (first : Nat) {cache : CertCache Key} (h : cache.length ≤ maxCertCacheEntries) :
    (evict first cache).length < maxCertCacheEntries := by
  unfold evict
  split
  · rename_i hfull
    have hpos : 0 < cache.length := Nat.lt_of_lt_of_le (by decide) hfull
    have hfirst : first % cache.length < cache.length := Nat.mod_lt _ hpos
    rw [List.getElem?_eq_getElem hfirst]
    dsimp only
    refine Nat.lt_of_lt_of_le (List.length_filter_lt_length_iff_exists.2 ?_) h
    exact ⟨cache[first % cache.length], List.getElem_mem hfirst, by simp⟩
  · rename_i hroom
    exact Nat.lt_of_not_le hroom

theorem mem_evict {first : Nat} {cache : CertCache Key} {entry : Str × Leaf Key} (h : entry ∈ evict first cache) :
    entry ∈ cache := by
  unfold evict at h
  split at h
  · split at h
    · exact List.mem_of_mem_filter h
    · exact h
  · exact h

theorem length_cacheCertificate {domain : Str} {pair : Leaf Key} {first : Nat} {cache : CertCache Key}
    (h : cache.length ≤ maxCertCacheEntries) :
    (cacheCertificate domain pair first cache).length ≤ maxCertCacheEntries := by
  have hevict := length_evict_lt first h
  have hfilter := List.length_filter_le (fun entry => decide (entry.1 ≠ domain)) (evict first cache)
  unfold cacheCertificate
  rw [List.length_append, List.length_singleton]
  omega

theorem mem_cacheCertificate {domain : Str} {pair : Leaf Key} {first : Nat} {cache : CertCache Key}
    {entry : Str × Leaf Key} (h : entry ∈ cacheCertificate domain pair first cache) :
    entry ∈ cache ∨ entry = (domain, pair) := by
  rcases List.mem_append.1 h with h | h
  · exact Or.inl (mem_evict (List.mem_of_mem_filter h))
  · exact Or.inr (List.mem_singleton.1 h)

theorem inv_set {s : State Key} (h : Inv ca s) (caller : Nat) {progress : Progress Key}
    (hprogress : progress.Genuine ca s.now) : Inv ca (s.set caller progress) := by
  refine ⟨h.cached, fun c => ?_, h.bounded⟩
  unfold State.set
  dsimp only
  split
  · exact hprogress
  · exact h.callers c

theorem inv_step {s : State Key} (h : Inv ca s) (e : Event) : Inv ca (step ca s e) := by
  cases e with
  | tick elapsed =>
    have hle : s.now ≤ s.now + (elapsed : Int) := by omega
    exact ⟨fun entry hentry => (h.cached entry hentry).mono hle, fun c => (h.callers c).mono hle, h.bounded⟩
  | lookUp caller domain =>
    unfold step
    dsimp only
    split
    · split
      · exact ⟨h.cached, h.callers, h.bounded⟩
      · exact inv_set h caller trivial
    · exact h
  | issue caller serial =>
    unfold step
    dsimp only
    split
    · split
      · rename_i hissue
        exact inv_set h caller (genuine_of_issue hissue)
      · exact inv_set h caller trivial
    · exact h
  | insert caller first =>
    unfold step
    dsimp only
    split
    · rename_i domain pair hcaller
      have hpair := h.callers caller
      rw [hcaller] at hpair
      have hset := @inv_set _ ca s h caller .idle trivial
      refine ⟨fun entry hentry => ?_, hset.callers, length_cacheCertificate h.bounded⟩
      rcases mem_cacheCertificate hentry with hentry | rfl
      · exact h.cached entry hentry
      · exact hpair
    · exact h

/-- The answers stay sound where one more is given in time. -/
theorem sound_answer_iff {s : State Key} (s' : State Key) {domain : Str} {pair : Leaf Key} (hsound : Sound ca s)
    (hgenuine : Genuine ca s.now domain pair) (hanswers : s'.answers = s.answers ++ [⟨domain, pair, s.now⟩])
    (hbounded : s'.cache.length ≤ maxCertCacheEntries) : Sound ca s' ↔ s.now ≤ pair.issuedAt + days 396 := by
  rw [← usable_iff hgenuine]
  constructor
  · intro h
    refine h.usable _ ?_
    rw [hanswers]
    exact List.mem_append_right _ (List.mem_singleton_self _)
  · intro h
    refine ⟨fun a ha => ?_, hbounded⟩
    rw [hanswers] at ha
    rcases List.mem_append.1 ha with ha | ha
    · exact hsound.usable a ha
    · rw [List.mem_singleton.1 ha]
      exact h

/-- One step hands out what is usable if and only if it does so in time. -/
theorem sound_step_iff {s : State Key} (h : Inv ca s) (hsound : Sound ca s) (e : Event) :
    Sound ca (step ca s e) ↔ InTime s e := by
  have hbounded := (inv_step h e).bounded
  cases e with
  | tick elapsed => exact iff_of_true ⟨hsound.usable, hbounded⟩ trivial
  | lookUp caller domain =>
    unfold step InTime at *
    dsimp only at *
    cases hcaller : s.callers caller with
    | missed _ | issued _ _ => exact iff_of_true hsound trivial
    | idle =>
      dsimp only
      cases hcached : cachedCertificate s.cache domain with
      | none => exact iff_of_true ⟨hsound.usable, hsound.bounded⟩ fun pair hpair => absurd hpair (by simp)
      | some pair =>
        dsimp only
        rw [sound_answer_iff (s.answer domain pair) hsound (genuine_of_cached h hcached) rfl hsound.bounded]
        constructor
        · intro hle pair' hpair'
          cases hpair'
          exact hle
        · intro hle
          exact hle pair rfl
  | issue caller serial =>
    refine iff_of_true ⟨?_, hbounded⟩ trivial
    unfold step
    dsimp only
    split
    · split <;> exact hsound.usable
    · exact hsound.usable
  | insert caller first =>
    unfold step InTime at *
    dsimp only at *
    cases hcaller : s.callers caller with
    | idle | missed _ => exact iff_of_true hsound trivial
    | issued domain pair =>
      rw [hcaller] at hbounded
      have hgenuine := h.callers caller
      rw [hcaller] at hgenuine
      exact sound_answer_iff _ hsound hgenuine rfl hbounded

variable (ca)

theorem inv_start (now : Int) : Inv ca (start now : State Key) :=
  ⟨fun _ h => absurd h List.not_mem_nil, fun _ => trivial, Nat.zero_le _⟩

/-- In a run all certificates that are handed out are usable, and the cache is bounded, exactly if every one is handed
out in time. -/
theorem leaves_sound_iff (now : Int) (events : List Event) :
    Machine.EveryState (step ca) (Sound ca) (start now) events ↔
      Machine.EveryStep (step ca) InTime (start now) events :=
  Machine.everyState_iff_everyStep (I := Inv ca) (P := Sound ca) (fun _ e h => inv_step h e)
    (fun _ e h hsound => sound_step_iff h hsound e) (inv_start ca now)
    ⟨fun _ h => absurd h List.not_mem_nil, Nat.zero_le _⟩ events

end

/-- Two calls for the same host, 397 days apart. -/
def lateCalls : List Event :=
  [.lookUp 0 "api.test", .issue 0 1, .insert 0 0, .tick 34300800000000000, .lookUp 0 "api.test"]

def testAuthority : Authority Unit := ⟨(), fun _ => true⟩

/-- The second call is given a certificate which has expired. -/
theorem not_leaves_sound : ¬ ∀ (Key : Type) (ca : Authority Key) (now : Int) (events : List Event),
    Machine.EveryState (step ca) (Sound ca) (start now) events := by
  intro h
  have hsound := (h Unit testAuthority 0 lateCalls).last
  obtain ⟨-, hlate⟩ := (hsound.usable _ (List.mem_of_getElem? (i := 1) rfl)).valid
  exact absurd hlate (by decide +kernel)

end Certs

end Oproxy
