import Oproxy.Lib.AtomicReplace
import Oproxy.Runtime.Storage

/-!
# Saves of the storage directory (`storage.rs`)

`write_atomic` writes the text of a value to a hidden file with a number of its own and renames it.  Here the storage
directory has files of bytes, saves take their system calls one by one, and the program may be killed between any two
of them.
-/

namespace Oproxy

open Persisted Mutations Machine Examples AtomicReplace

namespace Saves

/-! ### Files and texts -/

def fileName : Resource → Str
  | .collection .ruleSets => "rule_sets.json"
  | .throttling => "throttle.json"
  | .collection .dnsOverrides => "dns_overrides.json"
  | .collection .breakpoints => "breakpoints.json"
  | .captureFilter => "capture_filter.json"
  | .upstreamProxy => "upstream_proxy.json"
  | .collection .luaScripts => "lua_scripts.json"
  | .collection .mockRules => "mock_rules.json"
  | .collection .webhooks => "webhooks.json"
  | .collection .mapLocalRules => "map_local_rules.json"
  | .collection .accessRules => "access_rules.json"
  | .collection .mapRemoteRules => "map_remote_rules.json"

def hotConfigFile : Str := "hot_config.json"

/-- A value which is saved. -/
inductive Saving where
  | resource (r : Resource) (value : r.Value)
  | hotConfig (cfg : HotConfig)

def Saving.fileName : Saving → Str
  | resource r _ => Saves.fileName r
  | hotConfig _ => hotConfigFile

/-- `to_string_pretty` and `from_str`, with the bytes of the texts. -/
structure Texts where
  toStringPretty : Saving → Bytes
  fromStr : (r : Resource) → Bytes → Option r.Value
  hotConfigFromStr : Bytes → Option HotConfig

/-- A text of a value is read as this value. -/
def Texts.ReadsBack (texts : Texts) : Saving → Prop
  | .resource r value =>
    texts.fromStr r (texts.toStringPretty (.resource r value)) = some (Restarts.throughFile r value)
  | .hotConfig cfg => texts.hotConfigFromStr (texts.toStringPretty (.hotConfig cfg)) = some cfg

/-! ### Saves -/

/-- The name of the file which is written first; the counter of the process has 64 bits. -/
def tmpName (fileName : Str) (seq : Nat) : Str := '.' :: fileName ++ '.' :: Str.ofNat (seq % 2 ^ 64) ++ (".tmp" : Str)

/-- `save_json`, down to `write_atomic`. -/
def layout (texts : Texts) : Layout Str UInt8 Saving where
  target := Saving.fileName
  contents := texts.toStringPretty
  temp := tmpName

/-! ### The directory as it is read -/

structure Directory where
  files : Files
  hotConfig : Stored HotConfig

def stored {V : Type} (fromStr : Bytes → Option V) : Option Bytes → Stored V
  | none => .missing
  | some text =>
    match fromStr text with
    | none => .unreadable
    | some value => .holds value

def directory (texts : Texts) (dir : Str → Option Bytes) : Directory where
  files := fun r => stored (texts.fromStr r) (dir (fileName r))
  hotConfig := stored texts.hotConfigFromStr (dir hotConfigFile)

/-- A save in one step. -/
def Directory.save (d : Directory) : Saving → Directory
  | .resource r value => { d with files := Restarts.saveFile d.files (.resource r value) }
  | .hotConfig cfg => { d with hotConfig := .holds cfg }

/-! ### Names -/

private def resourceOf (name : Str) : Option Resource :=
  ([.collection .ruleSets, .throttling, .collection .dnsOverrides, .collection .breakpoints, .captureFilter,
    .upstreamProxy, .collection .luaScripts, .collection .mockRules, .collection .webhooks, .collection .mapLocalRules,
    .collection .accessRules, .collection .mapRemoteRules] : List Resource).find? fun r => fileName r = name

private theorem resourceOf_fileName (r : Resource) : resourceOf (fileName r) = some r := by
  rcases r with ⟨⟨⟩⟩ | _ | _ | _ <;> decide +kernel

theorem fileName_injective : Function.Injective fileName := by
  intro r r' h
  have hsame : some r = some r' := by rw [← resourceOf_fileName, ← resourceOf_fileName, h]
  exact Option.some.inj hsame

theorem fileName_ne_hotConfigFile (r : Resource) : fileName r ≠ hotConfigFile := by
  rcases r with ⟨⟨⟩⟩ | _ | _ | _ <;> decide

/-- No file that is replaced is hidden. -/
theorem head?_fileName (w : Saving) : w.fileName.head? ≠ some '.' := by
  cases w with
  | hotConfig _ =>
    show hotConfigFile.head? ≠ some '.'
    decide
  | resource r _ =>
    show (fileName r).head? ≠ some '.'
    rcases r with ⟨⟨⟩⟩ | _ | _ | _ <;> decide

/-- What comes after the last dot. -/
theorem eq_of_append_dot {l l' d d' : Str} (h : l ++ '.' :: d = l' ++ '.' :: d') (hd : '.' ∉ d) (hd' : '.' ∉ d') :
    d = d' := by
  have hlonger : ∀ {m e e' : Str}, '.' :: e = m ++ '.' :: e' → '.' ∉ e → e = e' := by
    intro m e e' heq he
    cases m with
    | nil => exact (List.cons.inj heq).2
    | cons c m =>
      refine absurd ?_ he
      rw [(List.cons.inj heq).2]
      exact List.mem_append_right m List.mem_cons_self
  rcases List.append_eq_append_iff.1 h with ⟨m, -, hrest⟩ | ⟨m, -, hrest⟩
  · exact hlonger hrest hd
  · exact (hlonger hrest hd').symm

theorem dot_not_mem_ofNat (n : Nat) : '.' ∉ Str.ofNat n := fun hmem =>
  absurd (Str.isAsciiDigit_of_mem_ofNat hmem) (by decide)

theorem ofNat_injective : Function.Injective Str.ofNat := by
  intro n n' h
  calc n = Nat.ofDigitChars 10 (Str.ofNat n) 0 := Nat.ofDigitChars_ten_toDigits.symm
    _ = Nat.ofDigitChars 10 (Str.ofNat n') 0 := by rw [h]
    _ = n' := Nat.ofDigitChars_ten_toDigits

theorem separate (texts : Texts) : Separate (layout texts) (2 ^ 64) := by
  refine ⟨fun {t t' n n'} hn hn' h => ?_, fun v w n heq => ?_⟩
  · have hsuffix : '.' :: t ++ '.' :: Str.ofNat (n % 2 ^ 64) = '.' :: t' ++ '.' :: Str.ofNat (n' % 2 ^ 64) :=
      List.append_cancel_right h
    have hdigits := eq_of_append_dot hsuffix (dot_not_mem_ofNat _) (dot_not_mem_ofNat _)
    have hmod := ofNat_injective hdigits
    rw [Nat.mod_eq_of_lt hn, Nat.mod_eq_of_lt hn'] at hmod
    exact hmod
  · refine head?_fileName v ?_
    show ((layout texts).target v).head? = some '.'
    rw [heq]
    rfl

/-! ### Saves one after the other -/

/-- The directory is read the same where the files which are replaced are the same. -/
theorem directory_congr {texts : Texts} {dir dir' : Str → Option Bytes}
    (h : ∀ w, dir ((layout texts).target w) = dir' ((layout texts).target w)) :
    directory texts dir = directory texts dir' := by
  have hfiles : ∀ r, dir (fileName r) = dir' (fileName r) := fun r => h (.resource r (emptyMemory r))
  have hhot : dir hotConfigFile = dir' hotConfigFile := h (.hotConfig ⟨none⟩)
  unfold directory
  simp only [hfiles, hhot]

theorem directory_replace {texts : Texts} (dir : Str → Option Bytes) {w : Saving} (h : texts.ReadsBack w) :
    directory texts (replace (layout texts) dir w) = (directory texts dir).save w := by
  cases w with
  | hotConfig cfg =>
    have hread : stored texts.hotConfigFromStr (some (texts.toStringPretty (.hotConfig cfg))) = .holds cfg := by
      unfold stored
      dsimp only
      rw [h]
    refine congrArg₂ Directory.mk (funext fun r => ?_) ?_
    · show stored _ (Function.update dir hotConfigFile _ (fileName r)) = _
      rw [Function.update_of_ne (fileName_ne_hotConfigFile r)]
      rfl
    · show stored _ (Function.update dir hotConfigFile _ hotConfigFile) = _
      rw [Function.update_self]
      exact hread
  | resource r value =>
    have hread : stored (texts.fromStr r) (some (texts.toStringPretty (.resource r value))) =
        .holds (Restarts.throughFile r value) := by
      unfold stored
      dsimp only
      rw [h]
    refine congrArg₂ Directory.mk (funext fun r' => ?_) ?_
    · show stored (texts.fromStr r') (Function.update dir (fileName r) _ (fileName r')) =
        Function.update (directory texts dir).files r (.holds (Restarts.throughFile r value)) r'
      by_cases hr : r' = r
      · subst hr
        rw [Function.update_self, Function.update_self]
        exact hread
      · rw [Function.update_of_ne hr, Function.update_of_ne (fileName_injective.ne hr)]
        rfl
    · show stored _ (Function.update dir (fileName r) _ hotConfigFile) = _
      rw [Function.update_of_ne (fileName_ne_hotConfigFile r).symm]
      rfl

theorem directory_foldl_replace {texts : Texts} (dir : Str → Option Bytes) {saves : List Saving}
    (h : ∀ w ∈ saves, texts.ReadsBack w) :
    directory texts (saves.foldl (replace (layout texts)) dir) = saves.foldl Directory.save (directory texts dir) := by
  induction saves generalizing dir with
  | nil => rfl
  | cons w saves ih =>
    obtain ⟨hw, hsaves⟩ := List.forall_mem_cons.1 h
    rw [List.foldl_cons, List.foldl_cons, ih _ hsaves, directory_replace dir hw]

/-- Whenever the directory is read, in every interleaving of saves which fail, or are killed, at any point, it is read
as the directory which the saves that have come to their rename make one after the other, in the order of their
renames. -/
theorem directory_run (texts : Texts) (dir : Str → Option Bytes) {events : List (AtomicReplace.Event Saving)}
    (hread : ∀ id w, AtomicReplace.Event.save id w ∈ events → texts.ReadsBack w) (hlength : events.length ≤ 2 ^ 64) :
    ∀ pre, pre <+: events →
      directory texts (run (step (layout texts)) (.idle dir) pre).dir =
          (endedIn (layout texts) (.idle dir) pre).foldl Directory.save (directory texts dir) ∧
        ∀ w ∈ endedIn (layout texts) (.idle dir) pre, ∃ id, AtomicReplace.Event.save id w ∈ pre := by
  intro pre hpre
  have hidle : Asked (fun w => ∃ id, AtomicReplace.Event.save id w ∈ pre) (State.idle (S := Saving) dir) :=
    fun _ _ hjob => by cases hjob
  have hasked : ∀ w ∈ endedIn (layout texts) (.idle dir) pre, ∃ id, AtomicReplace.Event.save id w ∈ pre :=
    fun w hw => asked_of_mem_endedIn hidle (fun id w hmem => ⟨id, hmem⟩) hw
  have hadmitted : EveryStep (step (layout texts)) (Admitted (2 ^ 64)) (.idle dir) pre :=
    everyStep_admitted (hpre.length_le.trans hlength)
  refine ⟨?_, hasked⟩
  rw [← directory_foldl_replace dir fun w hw => (hasked w hw).elim fun id hmem => hread id w (hpre.subset hmem)]
  exact directory_congr fun w => dir_run (separate texts) (inv_idle dir) hadmitted w

private def throttlingText (config : ThrottlingConfig) : Str :=
  ("\x7b\n  \"latency_ms\": " : Str) ++ Str.ofNat config.latencyMs.toNat ++ (",\n  \"bandwidth_limit_kbps\": " : Str) ++
    Str.ofNat config.bandwidthLimitKbps.toNat ++ (",\n  \"enabled\": " : Str) ++
      (if config.enabled then "true" else "false") ++ ("\n\x7d" : Str)

private def slow : ThrottlingConfig := ⟨200, 1024, true⟩

private def fast : ThrottlingConfig := ⟨0, 0, false⟩

private def readThrottling (text : Bytes) : Option ThrottlingConfig :=
  [slow, fast].find? fun config => Str.toUtf8 (throttlingText config) = text

private def throttlingTexts : Texts where
  toStringPretty
    | .resource .throttling config => Str.toUtf8 (throttlingText config)
    | _ => []
  fromStr
    | .throttling, text => readThrottling text
    | _, _ => none
  hotConfigFromStr _ := none

/-- The program is killed when one of two saves of a file has written half of it and the other one has answered. -/
private def killed : List (AtomicReplace.Event Saving) :=
  [.save 0 (.resource .throttling slow), .save 1 (.resource .throttling fast), .advance 0 0 false, .advance 1 0 false,
   .advance 0 40 false, .advance 1 80 false, .advance 1 0 false, .crash]

theorem directory_run_killed :
    directory throttlingTexts (run (step (layout throttlingTexts)) (.idle fun _ => none) killed).dir =
        (endedIn (layout throttlingTexts) (.idle fun _ => none) killed).foldl Directory.save
          (directory throttlingTexts fun _ => none) ∧
      ∀ w ∈ endedIn (layout throttlingTexts) (.idle fun _ => none) killed,
        ∃ id, AtomicReplace.Event.save id w ∈ killed := by
  refine directory_run throttlingTexts (fun _ => none) (fun id w hmem => ?_) (by decide) killed List.prefix_rfl
  have hslow : throttlingTexts.ReadsBack (.resource .throttling slow) := by
    have hread : readThrottling (Str.toUtf8 (throttlingText slow)) = some slow := by decide +kernel
    exact hread
  have hfast : throttlingTexts.ReadsBack (.resource .throttling fast) := by
    have hread : readThrottling (Str.toUtf8 (throttlingText fast)) = some fast := by decide +kernel
    exact hread
  simp only [killed, List.mem_cons, List.not_mem_nil, or_false, reduceCtorEq, Event.save.injEq] at hmem
  rcases hmem with ⟨-, rfl⟩ | ⟨-, rfl⟩
  · exact hslow
  · exact hfast

end Saves

end Oproxy
