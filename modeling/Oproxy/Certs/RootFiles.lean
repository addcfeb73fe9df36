import Oproxy.Lib.Run
import Oproxy.Lib.Text

/-!
# The files of the root certificate (`certs/mod.rs`)

A start loads `root.key` and `root.crt` where both are there, and makes both anew otherwise, the key first.  It may
break off at any point, also in the middle of a file: a file is emptied before it is written.  Between two starts
either file may be deleted.
-/

namespace Oproxy

namespace Certs

/-- The library for keys and certificates, as far as its texts go.  Keys are numbered in the order in which they are
made, so that no two are the same.  A text which has been written in part is no text of another key. -/
structure PemLibrary where
  serializePem : Nat → Str
  fromPem : Str → Option Nat
  /-- A certificate of a key; no two signatures are alike. -/
  selfSigned : Nat → Nat → Str
  /-- The key of a whole certificate. -/
  certifiedKey : Str → Option Nat
  fromPem_serializePem : ∀ key, fromPem (serializePem key) = some key
  fromPem_part : ∀ key part, part <+: serializePem key → fromPem part = none ∨ fromPem part = some key
  certifiedKey_selfSigned : ∀ key serial, certifiedKey (selfSigned key serial) = some key
  certifiedKey_part : ∀ key serial part, part <+: selfSigned key serial →
    certifiedKey part = none ∨ certifiedKey part = some key

variable (pem : PemLibrary)

/-- The directory, and the number of the next key. -/
structure RootFiles where
  key : Option Str
  cert : Option Str
  next : Nat

namespace RootFiles

def exist (files : RootFiles) : Bool := files.key.isSome && files.cert.isSome

/-- What `new` returns if nothing goes wrong on the way: the certificate which is served, and the key which signs. -/
def load (files : RootFiles) : Option (Str × Nat) := do
  let key ← files.key.bind pem.fromPem
  let cert ← files.cert
  return (cert, key)

def new (files : RootFiles) (serial : Nat) : Option (Str × Nat) :=
  if files.exist then files.load pem else some (pem.selfSigned files.next serial, files.next)

/-- Where a start breaks off: before it writes, or after some characters of one of the files. -/
inductive Crash where
  | beforeWrites
  | inKey (written : Nat)
  | inCert (written : Nat)

inductive Event where
  | start (serial : Nat) (crash : Option Crash)
  | deleteKey
  | deleteCert

/-- What `generate_root_ca` leaves behind. -/
def generate (files : RootFiles) (serial : Nat) (crash : Option Crash) : RootFiles :=
  let keyText := pem.serializePem files.next
  let certText := pem.selfSigned files.next serial
  match crash with
  | none => ⟨some keyText, some certText, files.next + 1⟩
  | some .beforeWrites => { files with next := files.next + 1 }
  | some (.inKey written) => ⟨some (keyText.take written), files.cert, files.next + 1⟩
  | some (.inCert written) => ⟨some keyText, some (certText.take written), files.next + 1⟩

def step (files : RootFiles) : Event → RootFiles
  | .start serial crash => if files.exist then files else files.generate pem serial crash
  | .deleteKey => { files with key := none }
  | .deleteCert => { files with cert := none }

def empty : RootFiles := ⟨none, none, 0⟩

/-! ### Matching files -/

/-- A start here serves a whole certificate of the key that it signs with, or fails. -/
def Sound (files : RootFiles) : Prop :=
  ∀ serial cert key, files.new pem serial = some (cert, key) → pem.certifiedKey cert = some key

/-- A start does not break off between a whole new key and the certificate for it, unless no certificate is there. -/
def Unbroken (files : RootFiles) : Event → Prop
  | .start serial (some crash) =>
    files.exist = true ∨
      match crash with
      | .beforeWrites => True
      | .inKey written => files.cert = none ∨ pem.fromPem ((pem.serializePem files.next).take written) = none
      | .inCert written => pem.certifiedKey ((pem.selfSigned files.next serial).take written) = some files.next
  | _ => True

/-- A certificate which is there is that of an earlier key, or a part of it. -/
def Inv (files : RootFiles) : Prop :=
  ∀ cert, files.cert = some cert → ∃ key serial, key < files.next ∧ cert <+: pem.selfSigned key serial

variable {pem} {files : RootFiles}

theorem inv_step (h : Inv pem files) (e : Event) : Inv pem (step pem files e) := by
  have hlater : ∀ cert, files.cert = some cert →
      ∃ key serial, key < files.next + 1 ∧ cert <+: pem.selfSigned key serial := by
    intro cert hcert
    obtain ⟨key, serial, hkey, hpart⟩ := h cert hcert
    exact ⟨key, serial, Nat.lt_succ_of_lt hkey, hpart⟩
  cases e with
  | start serial crash =>
    unfold step
    dsimp only
    split
    · exact h
    · intro cert hcert
      match crash with
      | none =>
        cases hcert
        exact ⟨files.next, serial, Nat.lt_succ_self _, List.prefix_refl _⟩
      | some .beforeWrites => exact hlater cert hcert
      | some (.inKey written) => exact hlater cert hcert
      | some (.inCert written) =>
        cases hcert
        exact ⟨files.next, serial, Nat.lt_succ_self _, List.take_prefix _ _⟩
  | deleteKey => exact h
  | deleteCert =>
    intro cert hcert
    cases hcert

/-- Where a file is missing both are made anew. -/
theorem sound_of_missing (h : files.exist = false) : Sound pem files := by
  intro serial cert key hnew
  unfold new at hnew
  rw [h] at hnew
  cases hnew
  exact pem.certifiedKey_selfSigned _ _

/-- Two files are as good as the key and the certificate in them. -/
theorem sound_iff_of_files {keyText cert : Str} {next : Nat} :
    Sound pem ⟨some keyText, some cert, next⟩ ↔
      ∀ key, pem.fromPem keyText = some key → pem.certifiedKey cert = some key := by
  have hnew : ∀ serial, new pem ⟨some keyText, some cert, next⟩ serial =
      (pem.fromPem keyText).map fun key => (cert, key) := by
    intro serial
    unfold new exist load
    simp only [Option.isSome_some, Bool.and_true, if_true, Option.bind_some]
    cases pem.fromPem keyText <;> rfl
  constructor
  · intro h key hkey
    refine h 0 cert key ?_
    rw [hnew, hkey]
    rfl
  · intro h serial cert' key hsome
    rw [hnew] at hsome
    obtain ⟨key', hkey', heq⟩ := Option.map_eq_some_iff.1 hsome
    cases heq
    exact h key hkey'

/-- The certificate of an earlier key is not that of the next one. -/
theorem certifiedKey_ne_next (h : Inv pem files) {cert : Str} (hcert : files.cert = some cert) :
    pem.certifiedKey cert ≠ some files.next := by
  obtain ⟨key, serial, hkey, hpart⟩ := h cert hcert
  intro hnext
  rcases pem.certifiedKey_part key serial cert hpart with hnone | hsome
  · rw [hnone] at hnext
    cases hnext
  · rw [hsome] at hnext
    cases hnext
    exact Nat.lt_irrefl _ hkey

theorem sound_inKey_iff (h : Inv pem files) (serial written : Nat) :
    Sound pem (files.generate pem serial (some (.inKey written))) ↔
      files.cert = none ∨ pem.fromPem ((pem.serializePem files.next).take written) = none := by
  unfold generate
  dsimp only
  cases hcert : files.cert with
  | none =>
    refine iff_of_true (sound_of_missing ?_) (Or.inl rfl)
    exact Bool.and_false _
  | some cert =>
    rw [sound_iff_of_files]
    have hne := certifiedKey_ne_next h hcert
    have hpart := pem.fromPem_part files.next _ (List.take_prefix written (pem.serializePem files.next))
    constructor
    · intro hsound
      rcases hpart with hnone | hsome
      · exact Or.inr hnone
      · exact absurd (hsound _ hsome) hne
    · rintro (hnone | hnone) key hkey
      · cases hnone
      · rw [hnone] at hkey
        cases hkey

theorem sound_inCert_iff (serial written : Nat) :
    Sound pem (files.generate pem serial (some (.inCert written))) ↔
      pem.certifiedKey ((pem.selfSigned files.next serial).take written) = some files.next := by
  unfold generate
  dsimp only
  rw [sound_iff_of_files, pem.fromPem_serializePem]
  constructor
  · intro h
    exact h _ rfl
  · intro h key hkey
    cases hkey
    exact h

/-- The files stay sound exactly where a start is not broken off in between. -/
theorem sound_step_iff (h : Inv pem files) (hsound : Sound pem files) (e : Event) :
    Sound pem (step pem files e) ↔ Unbroken pem files e := by
  cases e with
  | start serial crash =>
    unfold step
    dsimp only
    cases hexist : files.exist with
    | true =>
      rw [if_pos rfl]
      refine iff_of_true hsound ?_
      cases crash with
      | none => trivial
      | some crash => exact Or.inl hexist
    | false =>
      rw [if_neg Bool.false_ne_true]
      match crash with
      | none =>
        refine iff_of_true ?_ trivial
        refine sound_iff_of_files.2 fun key hkey => ?_
        rw [pem.fromPem_serializePem] at hkey
        cases hkey
        exact pem.certifiedKey_selfSigned _ _
      | some .beforeWrites => exact iff_of_true (sound_of_missing hexist) (Or.inr trivial)
      | some (.inKey written) =>
        rw [sound_inKey_iff h]
        unfold Unbroken
        rw [hexist]
        exact (or_iff_right Bool.false_ne_true).symm
      | some (.inCert written) =>
        rw [sound_inCert_iff]
        unfold Unbroken
        rw [hexist]
        exact (or_iff_right Bool.false_ne_true).symm
  | deleteKey => exact iff_of_true (sound_of_missing rfl) trivial
  | deleteCert => exact iff_of_true (sound_of_missing (Bool.and_false _)) trivial

variable (pem)

/-- Every start of a run serves what it signs with, or fails, exactly where no start is broken off between a whole new
key and the certificate for it. -/
theorem rootFiles_sound_iff (events : List Event) :
    Machine.EveryState (step pem) (Sound pem) empty events ↔
      Machine.EveryStep (step pem) (Unbroken pem) empty events :=
  Machine.everyState_iff_everyStep (I := Inv pem) (P := Sound pem) (fun _ e h => inv_step h e)
    (fun _ e h hsound => sound_step_iff h hsound e) (fun _ hcert => absurd hcert (by simp [empty]))
    (sound_of_missing rfl) events

/-! ### A start that is broken off -/

/-- A number with a mark at its end, which a part of the text lacks. -/
def numeral : Nat → Str
  | 0 => ['.']
  | n + 1 => 'x' :: numeral n

def readNumeral : Str → Option Nat
  | ['.'] => some 0
  | 'x' :: s => (readNumeral s).map (· + 1)
  | _ => none

theorem readNumeral_numeral (n : Nat) : readNumeral (numeral n) = some n := by
  induction n with
  | zero => rfl
  | succ n ih => rw [numeral, readNumeral, ih, Option.map_some]

theorem readNumeral_part {n : Nat} {part : Str} (h : part <+: numeral n) :
    readNumeral part = none ∨ readNumeral part = some n := by
  induction n generalizing part with
  | zero =>
    rcases part with _ | ⟨c, part⟩
    · exact Or.inl rfl
    · obtain ⟨rfl, hpart⟩ := List.cons_prefix_cons.1 h
      rw [List.prefix_nil.1 hpart]
      exact Or.inr rfl
  | succ n ih =>
    rcases part with _ | ⟨c, part⟩
    · exact Or.inl rfl
    · obtain ⟨rfl, hpart⟩ := List.cons_prefix_cons.1 h
      rw [readNumeral]
      rcases ih hpart with hnone | hsome
      · rw [hnone]
        exact Or.inl rfl
      · rw [hsome]
        exact Or.inr rfl

def numeralLibrary : PemLibrary where
  serializePem := numeral
  fromPem := readNumeral
  selfSigned := fun key _ => numeral key
  certifiedKey := readNumeral
  fromPem_serializePem := readNumeral_numeral
  fromPem_part := fun _ _ => readNumeral_part
  certifiedKey_selfSigned := fun key _ => readNumeral_numeral key
  certifiedKey_part := fun _ _ _ => readNumeral_part

/-- A start which is broken off when `root.crt` has been emptied leaves two files, and the next one serves them. -/
theorem not_rootFiles_sound : ¬ ∀ (pem : PemLibrary) (events : List Event),
    Machine.EveryState (step pem) (Sound pem) empty events := by
  intro h
  have hsound := (h numeralLibrary [.start 1 (some (.inCert 0))]).last
  exact absurd (hsound 2 [] 0 rfl) (by decide)

end RootFiles

end Certs

end Oproxy
