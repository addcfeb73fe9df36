import Oproxy.ControlPlane.Login
import Oproxy.Lib.Browser
import Oproxy.Lib.Replacing

/-!
# Where signing in leads

A browser which was sent to the form comes back with the page it asked for through two encodings, a template and a page;
what `postLogin` answers is resolved by the rules of a browser.
-/

namespace Oproxy

namespace Login

open Http (isFieldChar)

/-! ### Leaving the site -/

section

variable (parse : Str → Option Browser.Origin) (base : Browser.Origin)

/-- Every answer which signs a browser in leads to a page of the site. -/
def StaysOnSite (next : Str) : Prop :=
  ∀ config token location setCookie, postLogin config ⟨token, some next⟩ = .signedIn location setCookie →
    Browser.resolveOrigin parse base location = some base

/-- The condition: where `next` may stand in a field and is let through, no slash or backslash follows the first slash,
tabs aside, unless it is the site's own authority that follows. -/
def SafeNext (next : Str) : Prop :=
  next.all isFieldChar = true → ∀ rest, next = '/' :: rest → rest.head? ≠ some '/' →
    Str.startsWith next "/login" = false →
    ∀ c, rest.find? (fun c => !Browser.isTabOrNewline c) = some c → Browser.isSlash c = true →
      ∃ authority, Browser.authorityReference (Browser.cleanReference next) = some authority ∧
        parse (base.scheme ++ ("://" : Str) ++ authority) = some base

theorem startsWith_slash_iff {s : Str} : Str.startsWith s "/" = true ↔ ∃ rest, s = '/' :: rest := Str.startsWith_iff

theorem startsWith_two_slashes (rest : Str) : Str.startsWith ('/' :: rest) "//" = true ↔ rest.head? = some '/' := by
  rw [Str.startsWith_iff]
  constructor
  · rintro ⟨r, hr⟩
    rw [(List.cons.inj hr).2]
    rfl
  · intro h
    cases rest with
    | nil => cases h
    | cons c r =>
      cases h
      exact ⟨r, rfl⟩

/-- What the guard lets through. -/
def Passes (next : Str) : Prop :=
  ∃ rest, next = '/' :: rest ∧ rest.head? ≠ some '/' ∧ Str.startsWith next "/login" = false

theorem sanitizeNext_of_passes {next : Str} (h : Passes next) : sanitizeNext next = next := by
  obtain ⟨rest, rfl, hhead, hlogin⟩ := h
  rw [sanitizeNext_eq, if_pos]
  exact ⟨startsWith_slash_iff.2 ⟨rest, rfl⟩, Bool.eq_false_iff.2 (mt (startsWith_two_slashes rest).1 hhead), hlogin⟩

theorem sanitizeNext_of_not_passes {next : Str} (h : ¬Passes next) : sanitizeNext next = "/" := by
  rw [sanitizeNext_eq, if_neg]
  rintro ⟨hslash, htwo, hlogin⟩
  obtain ⟨rest, rfl⟩ := startsWith_slash_iff.1 hslash
  exact h ⟨rest, rfl, mt (startsWith_two_slashes rest).2 (Bool.eq_false_iff.1 htwo), hlogin⟩

theorem resolveOrigin_root : Browser.resolveOrigin parse base "/" = some base :=
  Browser.resolveOrigin_slash parse base []

/-- A path that passes leads to the site exactly if nothing behind its slash makes it an authority but the site's. -/
theorem resolveOrigin_iff (rest : Str) :
    Browser.resolveOrigin parse base ('/' :: rest) = some base ↔
      ∀ c, rest.find? (fun c => !Browser.isTabOrNewline c) = some c → Browser.isSlash c = true →
        ∃ authority, Browser.authorityReference (Browser.cleanReference ('/' :: rest)) = some authority ∧
          parse (base.scheme ++ ("://" : Str) ++ authority) = some base := by
  have hnone := Browser.authorityReference_slash_eq_none_iff rest
  rw [Browser.resolveOrigin_slash]
  cases hauthority : Browser.authorityReference (Browser.cleanReference ('/' :: rest)) with
  | none =>
    rw [hauthority] at hnone
    refine iff_of_true rfl fun c hc hslash => ?_
    rw [hnone.1 rfl c hc] at hslash
    cases hslash
  | some authority =>
    constructor
    · intro h c hc hslash
      exact ⟨authority, rfl, h⟩
    · intro h
      obtain ⟨c, hc, hslash⟩ : ∃ c, rest.find? (fun c => !Browser.isTabOrNewline c) = some c ∧
          Browser.isSlash c = true := by
        by_contra hno
        have : Browser.authorityReference (Browser.cleanReference ('/' :: rest)) = none :=
          hnone.2 fun c hc => Bool.eq_false_iff.2 fun hslash => hno ⟨c, hc, hslash⟩
        rw [hauthority] at this
        cases this
      obtain ⟨authority', heq, hbase⟩ := h c hc hslash
      cases heq
      exact hbase

/-- A proxy with the token `t`. -/
def someConfig : Config where
  port := 8080
  bindHost := "127.0.0.1"
  allowRemoteAdmin := false
  adminToken := some "t"

theorem staysOnSite_iff (next : Str) : StaysOnSite parse base next ↔ SafeNext parse base next := by
  constructor
  · rintro h hfield rest rfl hhead hlogin
    have hpass : sanitizeNext ('/' :: rest) = '/' :: rest := sanitizeNext_of_passes ⟨rest, rfl, hhead, hlogin⟩
    have htoken : (Str.trim "t").all isFieldChar = true := by decide
    have hanswer := @postLogin_of_token someConfig ⟨"t", some ('/' :: rest)⟩ rfl
      (by rw [Option.getD_some, hpass]; exact hfield) htoken
    rw [Option.getD_some, hpass] at hanswer
    exact (resolveOrigin_iff parse base rest).1 (h _ _ _ _ hanswer)
  · intro h config token location setCookie hanswer
    obtain ⟨-, hlocation, -, hfield, -⟩ := postLogin_signedIn hanswer
    rw [Option.getD_some] at hlocation
    by_cases hpass : Passes next
    · rw [sanitizeNext_of_passes hpass] at hlocation
      subst hlocation
      obtain ⟨rest, rfl, hhead, hlogin⟩ := hpass
      exact (resolveOrigin_iff parse base rest).2 (h hfield rest rfl hhead hlogin)
    · rw [hlocation, sanitizeNext_of_not_passes hpass]
      exact resolveOrigin_root parse base

end

/-! ### Escapes, there and back -/

theorem htmlEscape_cons (c : Char) (s : Str) : htmlEscape (c :: s) = htmlEscape [c] ++ htmlEscape s := by
  unfold htmlEscape
  rw [List.flatMap_cons, List.flatMap_singleton]

theorem htmlEscape_append (s t : Str) : htmlEscape (s ++ t) = htmlEscape s ++ htmlEscape t := List.flatMap_append

/-- The letters of the references. -/
def referenceChars : Str := "&ampltgquo#x27;"

theorem htmlEscape_singleton (c : Char) :
    (htmlEscape [c] = [c] ∧ c ≠ '&' ∧ c ≠ Json.quoteMark) ∨
      (c ∈ ['&', '<', '>', Json.quoteMark, '\''] ∧ ∃ r, htmlEscape [c] = '&' :: r ∧
        ∀ d ∈ '&' :: r, d ∈ referenceChars) := by
  by_cases hc : c ∈ ['&', '<', '>', Json.quoteMark, '\'']
  · right
    refine ⟨hc, ?_⟩
    rw [List.mem_cons, List.mem_cons, List.mem_cons, List.mem_cons, List.mem_singleton] at hc
    rcases hc with rfl | rfl | rfl | rfl | rfl
    · exact ⟨"amp;", by decide, by decide⟩
    · exact ⟨"lt;", by decide, by decide⟩
    · exact ⟨"gt;", by decide, by decide⟩
    · exact ⟨"quot;", by decide, by decide⟩
    · exact ⟨"#x27;", by decide, by decide⟩
  · left
    rw [List.mem_cons, List.mem_cons, List.mem_cons, List.mem_cons, List.mem_singleton, not_or, not_or, not_or,
      not_or] at hc
    obtain ⟨h₁, h₂, h₃, h₄, h₅⟩ := hc
    refine ⟨?_, h₁, h₄⟩
    unfold htmlEscape
    rw [List.flatMap_singleton, if_neg h₁, if_neg h₂, if_neg h₃, if_neg h₄, if_neg h₅]

theorem mem_htmlEscape {c : Char} {s : Str} (h : c ∈ htmlEscape s) :
    (c ∈ s ∧ c ≠ Json.quoteMark) ∨ c ∈ referenceChars := by
  induction s with
  | nil => cases h
  | cons d s ih =>
    rw [htmlEscape_cons, List.mem_append] at h
    rcases h with h | h
    · rcases htmlEscape_singleton d with ⟨heq, -, hquote⟩ | ⟨-, r, heq, hletters⟩
      · rw [heq, List.mem_singleton] at h
        subst h
        exact Or.inl ⟨List.mem_cons_self, hquote⟩
      · rw [heq] at h
        exact Or.inr (hletters c h)
    · rcases ih h with ⟨hmem, hne⟩ | hletter
      · exact Or.inl ⟨List.mem_cons_of_mem _ hmem, hne⟩
      · exact Or.inr hletter

theorem readReferences_escape (c : Char) (s : Str) :
    Browser.readReferences 0 (htmlEscape [c] ++ s) = c :: Browser.readReferences 0 s := by
  rcases htmlEscape_singleton c with ⟨heq, hne, -⟩ | ⟨hc, -⟩
  · rw [heq, List.singleton_append, Browser.readReferences, if_neg hne]
  · simp only [List.mem_cons, List.not_mem_nil, or_false] at hc
    rcases hc with rfl | rfl | rfl | rfl | rfl <;> rfl

/-- A browser reads in an attribute what was escaped. -/
theorem readReferences_htmlEscape (s : Str) : Browser.readReferences 0 (htmlEscape s) = s := by
  induction s with
  | nil => rfl
  | cons c s ih => rw [htmlEscape_cons, readReferences_escape, ih]

/-- An occurrence of plain characters starts in the escaped text where it starts in the text. -/
theorem startsWith_htmlEscape {pat : Str} (hplain : ∀ c ∈ pat, htmlEscape [c] = [c]) (s : Str) :
    Str.startsWith (htmlEscape s) pat = Str.startsWith s pat := by
  induction pat generalizing s with
  | nil =>
    rw [Str.startsWith_iff.2 ⟨_, (List.nil_append _).symm⟩, Str.startsWith_iff.2 ⟨_, (List.nil_append _).symm⟩]
  | cons p pat ih =>
    have hp : p ≠ '&' := by
      rintro rfl
      exact absurd (hplain '&' List.mem_cons_self) (by decide)
    have ih := ih fun c hc => hplain c (List.mem_cons_of_mem _ hc)
    cases s with
    | nil => rfl
    | cons c s =>
      have hstep : ∀ (d : Char) (t : Str), Str.startsWith (d :: t) (p :: pat) =
          if p = d then Str.startsWith t pat else false := by
        intro d t
        unfold Str.startsWith
        rw [Str.stripPrefix]
        split <;> rfl
      rw [htmlEscape_cons]
      rcases htmlEscape_singleton c with ⟨heq, -⟩ | ⟨hc, r, heq, -⟩
      · rw [heq, List.singleton_append, hstep, hstep, ih]
      · have hpc : p ≠ c := by
          rintro rfl
          rw [hplain p List.mem_cons_self] at heq
          exact hp (List.cons.inj heq).1
        rw [heq, List.cons_append, hstep, hstep, if_neg hp, if_neg hpc]

/-- A text without the first character of the pattern stays. -/
theorem replace_append_of_free {p : Char} {pat a : Str} (hp : pat.head? = some p) (h : p ∉ a) (new s : Str) :
    Str.replace pat new (a ++ s) = a ++ Str.replace pat new s := by
  refine Str.replace_append fun b hne hsuffix => ?_
  obtain ⟨d, b, rfl⟩ := List.exists_cons_of_ne_nil hne
  rw [Bool.eq_false_iff]
  intro hstart
  obtain ⟨t, ht⟩ := Str.startsWith_iff.1 hstart
  have hd : some d = pat.head?.or t.head? := by rw [← List.head?_append, ← ht]; rfl
  rw [hp, Option.some_or, Option.some.injEq] at hd
  exact h (hd ▸ hsuffix.subset List.mem_cons_self)

/-- What is taken out of the escaped text is taken out of the text. -/
theorem replace_htmlEscape {p : Char} {pat : Str} (hp : p ∉ referenceChars)
    (hplain : ∀ c ∈ p :: pat, htmlEscape [c] = [c]) (s : Str) :
    Str.replace (p :: pat) [] (htmlEscape s) = htmlEscape (Str.replace (p :: pat) [] s) := by
  have hpat : p :: pat ≠ [] := List.cons_ne_nil _ _
  have hself : htmlEscape (p :: pat) = p :: pat := by
    unfold htmlEscape at hplain ⊢
    calc (p :: pat).flatMap _ = (p :: pat).flatMap fun c => [c] := List.flatMap_congr fun c hc => by
          have := hplain c hc
          rwa [List.flatMap_singleton] at this
      _ = p :: pat := List.flatMap_singleton' _
  induction s using Str.replace_induction hpat with
  | nil =>
    rw [Str.replace_nil]
    exact Str.replace_nil _ _
  | skip c s hskip ih =>
    have hstart := startsWith_htmlEscape hplain (c :: s)
    rw [hskip, htmlEscape_cons] at hstart
    rw [Str.replace_cons hskip, htmlEscape_cons c s, htmlEscape_cons c (Str.replace (p :: pat) [] s), ← ih]
    rcases htmlEscape_singleton c with ⟨heq, -⟩ | ⟨-, r, heq, hletters⟩
    · rw [heq, List.singleton_append] at hstart ⊢
      exact Str.replace_cons hstart
    · rw [heq]
      exact replace_append_of_free rfl (fun hmem => hp (hletters p hmem)) [] _
  | hit s ih =>
    rw [htmlEscape_append, hself, Str.replace_append_self hpat, Str.replace_append_self hpat, List.nil_append,
      List.nil_append, ih]

/-! ### Encodings, there and back -/

def plusToSpace (s : Str) : Str := s.map fun c => if c = '+' then ' ' else c

theorem formDecode_eq (s : Str) :
    formDecode s = Utf8.decodeLossy (Mutations.Http.percentDecode (plusToSpace s)) := rfl

/-- A byte in front of a text to be decoded. -/
def Decodes (encoded : Str) (b : UInt8) : Prop :=
  ∀ rest, Mutations.Http.percentDecode (plusToSpace (encoded ++ rest)) =
    b :: Mutations.Http.percentDecode (plusToSpace rest)

private theorem utf8EncodeChar_ofNat {n : Nat} (h : n < 128) :
    String.utf8EncodeChar (Char.ofNat n) = [UInt8.ofNat n] := by
  have hval : (Char.ofNat n).val.toNat = n := by
    have hvalid : n.isValidChar := Or.inl (by omega)
    unfold Char.ofNat
    rw [dif_pos hvalid]
    rfl
  unfold String.utf8EncodeChar
  dsimp only
  rw [hval, if_pos (by omega)]

theorem decodes_kept {b : UInt8} (hb : b.toNat < 128) (hpercent : Char.ofNat b.toNat ≠ '%')
    (hplus : Char.ofNat b.toNat ≠ '+') : Decodes [Char.ofNat b.toNat] b := by
  intro rest
  unfold plusToSpace Mutations.Http.percentDecode
  rw [List.singleton_append, List.map_cons, if_neg hplus, Mutations.Http.percentDecodeFrom, if_neg hpercent,
    utf8EncodeChar_ofNat hb, UInt8.ofNat_toNat]
  rfl

theorem decodes_percent {b : UInt8} {high low : Char} (hhigh : IpAddr.hexDigit high = some (b.toNat / 16))
    (hlow : IpAddr.hexDigit low = some (b.toNat % 16)) : Decodes ['%', high, low] b := by
  have hplus : ∀ {c n}, IpAddr.hexDigit c = some n → (if c = '+' then ' ' else c) = c := by
    intro c n hc
    rw [if_neg]
    rintro rfl
    cases hc
  intro rest
  unfold plusToSpace Mutations.Http.percentDecode
  simp only [List.cons_append, List.nil_append, List.map_cons]
  rw [hplus hhigh, hplus hlow, if_neg (by decide), Mutations.Http.percentDecodeFrom, if_pos rfl,
    Mutations.Http.percentByte, hhigh, hlow]
  have hbyte : UInt8.ofNat (16 * (b.toNat / 16) + b.toNat % 16) = b := by
    rw [Nat.div_add_mod, UInt8.ofNat_toNat]
  simp only [Option.bind_eq_bind, Option.bind_some, Option.pure_def, hbyte]
  rfl

/-- Bytes which are encoded one by one come back. -/
theorem formDecode_flatMap {f : UInt8 → Str} (hf : ∀ b, Decodes (f b) b) (s : Str) :
    formDecode (s.toUtf8.flatMap f) = s := by
  have hbytes : ∀ bytes : Bytes, Mutations.Http.percentDecode (plusToSpace (bytes.flatMap f)) = bytes := by
    intro bytes
    induction bytes with
    | nil => rfl
    | cons b bytes ih => rw [List.flatMap_cons, hf b, ih]
  rw [formDecode_eq, hbytes, Utf8.decodeLossy_toUtf8]

/-- The encoding of a byte: characters of the set are kept. -/
def encodedByte (kept : Char → Bool) (digit : Nat → Char) (b : UInt8) : Str :=
  if b.toNat < 128 && kept (Char.ofNat b.toNat) then [Char.ofNat b.toNat]
  else ['%', digit (b.toNat / 16), digit (b.toNat % 16)]

section

variable {kept : Char → Bool} {digit : Nat → Char}

theorem decodes_encodedByte (hpercent : kept '%' = false) (hplus : kept '+' = false)
    (hdigit : ∀ n < 16, IpAddr.hexDigit (digit n) = some n) (b : UInt8) : Decodes (encodedByte kept digit b) b := by
  have hlt : b.toNat < 256 := b.toNat_lt
  unfold encodedByte
  split
  · rename_i hb
    rw [Bool.and_eq_true, decide_eq_true_eq] at hb
    refine decodes_kept hb.1 ?_ ?_
    · intro hc
      rw [hc, hpercent] at hb
      cases hb.2
    · intro hc
      rw [hc, hplus] at hb
      cases hb.2
  · exact decodes_percent (hdigit _ (by omega)) (hdigit _ (by omega))

theorem not_mem_encodedByte {sep : Char} (hkept : kept sep = false) (hpercent : sep ≠ '%')
    (hdigit : ∀ n < 16, sep ≠ digit n) (b : UInt8) : sep ∉ encodedByte kept digit b := by
  have hlt : b.toNat < 256 := b.toNat_lt
  unfold encodedByte
  split
  · rename_i hb
    rw [List.mem_singleton]
    rintro rfl
    rw [Bool.and_eq_true, hkept] at hb
    cases hb.2
  · rw [List.mem_cons, List.mem_cons, List.mem_singleton, not_or, not_or]
    exact ⟨hpercent, hdigit _ (by omega), hdigit _ (by omega)⟩

end

/-- The characters which `encode_next_param` keeps. -/
def isNextChar (c : Char) : Bool := c.isAlphanum || c == '-' || c == '_' || c == '.' || c == '~' || c == '/'

/-- The characters which a form keeps. -/
def isFormChar (c : Char) : Bool := c.isAlphanum || c == '*' || c == '-' || c == '.' || c == '_'

theorem encodeNextParam_eq (s : Str) :
    Auth.encodeNextParam s = s.toUtf8.flatMap (encodedByte isNextChar Auth.hexDigit) := rfl

def formDigit (n : Nat) : Char := (Nat.digitChar n).toUpper

theorem formByte_eq (b : UInt8) :
    Browser.formByte b = if b = 0x20 then ['+'] else encodedByte isFormChar formDigit b := rfl

theorem formDecode_encodeNextParam (s : Str) : formDecode (Auth.encodeNextParam s) = s := by
  rw [encodeNextParam_eq]
  exact formDecode_flatMap (decodes_encodedByte (by decide) (by decide) (by decide)) s

theorem not_mem_encodeNextParam {sep : Char} (hkept : isNextChar sep = false) (hpercent : sep ≠ '%')
    (hdigit : ∀ n < 16, sep ≠ Auth.hexDigit n) (s : Str) : sep ∉ Auth.encodeNextParam s := by
  rw [encodeNextParam_eq, List.mem_flatMap]
  rintro ⟨b, -, hb⟩
  exact not_mem_encodedByte hkept hpercent hdigit b hb

theorem formDecode_formValue {s : Str} (h : '\n' ∉ s) : formDecode (Browser.formValue s) = s := by
  rw [Browser.formValue_eq h]
  refine formDecode_flatMap (fun b => ?_) s
  rw [formByte_eq]
  split
  · rename_i hspace
    subst hspace
    exact fun rest => rfl
  · exact decodes_encodedByte (by decide) (by decide) (by decide) b

theorem not_mem_formValue {sep : Char} (hkept : isFormChar sep = false) (hpercent : sep ≠ '%') (hplus : sep ≠ '+')
    (hdigit : ∀ n < 16, sep ≠ formDigit n) (s : Str) : sep ∉ Browser.formValue s := by
  unfold Browser.formValue
  rw [List.mem_flatMap]
  rintro ⟨b, -, hb⟩
  rw [formByte_eq] at hb
  split at hb
  · exact hplus (List.mem_singleton.1 hb)
  · exact not_mem_encodedByte hkept hpercent hdigit b hb

theorem formPair {name value decodedName decodedValue : Str} (hname : '=' ∉ name)
    (hdname : formDecode name = decodedName)
    (hdvalue : formDecode value = decodedValue) :
    (let (n, v) := (Str.splitOnce '=' (name ++ '=' :: value)).getD (name ++ '=' :: value, [])
     (formDecode n, formDecode v)) = (decodedName, decodedValue) := by
  rw [Str.splitOnce_append hname, Option.getD_some]
  show (formDecode name, formDecode value) = _
  rw [hdname, hdvalue]

/-- The fields of a form come back from its body. -/
theorem formPairs_formBody {fields : List (Str × Str)} (hne : fields ≠ [])
    (h : ∀ field ∈ fields, '\n' ∉ field.1 ∧ '\n' ∉ field.2) : formPairs (Browser.formBody fields) = fields := by
  have hsplit : Str.split '&' (Browser.formBody fields) =
      fields.map fun field => Browser.formValue field.1 ++ '=' :: Browser.formValue field.2 := by
    refine List.splitOn_intercalate _ (fun part hpart => ?_) (by simpa using hne)
    obtain ⟨field, -, rfl⟩ := List.mem_map.1 hpart
    rw [List.mem_append, List.mem_cons]
    rintro (hmem | hmem | hmem)
    · exact not_mem_formValue (by decide) (by decide) (by decide) (by decide) _ hmem
    · exact absurd hmem (by decide)
    · exact not_mem_formValue (by decide) (by decide) (by decide) (by decide) _ hmem
  have hkept : ∀ part ∈ fields.map fun field => Browser.formValue field.1 ++ '=' :: Browser.formValue field.2,
      (!part.isEmpty) = true := by
    intro part hpart
    obtain ⟨field, -, rfl⟩ := List.mem_map.1 hpart
    simp
  unfold formPairs
  rw [hsplit, List.filter_eq_self.2 hkept, List.map_map]
  calc fields.map _ = fields.map id := List.map_congr_left fun field hfield =>
        formPair (not_mem_formValue (by decide) (by decide) (by decide) (by decide) _)
          (formDecode_formValue (h field hfield).1) (formDecode_formValue (h field hfield).2)
    _ = fields := List.map_id fields

/-- The query to which the layer sends a browser has the page that it asked for. -/
theorem formPairs_next (path : Str) :
    formPairs (("next=" : Str) ++ Auth.encodeNextParam path) = [(("next" : Str), path)] := by
  have hname : ("next=" : Str) = ("next" : Str) ++ ['='] := by decide
  have hsplit : Str.split '&' (("next" : Str) ++ '=' :: Auth.encodeNextParam path) =
      [("next" : Str) ++ '=' :: Auth.encodeNextParam path] := by
    apply List.splitOn_eq_singleton
    rw [List.mem_append, List.mem_cons]
    rintro (hmem | hmem | hmem)
    · exact absurd hmem (by decide)
    · exact absurd hmem (by decide)
    · exact not_mem_encodeNextParam (by decide) (by decide) (by decide) path hmem
  have hpair := @formPair "next" (Auth.encodeNextParam path) "next" path (by decide) (by decide)
    (formDecode_encodeNextParam path)
  rw [hname, List.append_assoc, List.singleton_append]
  unfold formPairs
  rw [hsplit, List.filter_cons_of_pos (by simp), List.filter_nil, List.map_cons, List.map_nil]
  exact congrArg (fun pair => [pair]) hpair

/-! ### The page, there and back -/

def errorMark : Str := "\x7b\x7bERROR\x7d\x7d"

def pageMark : Str := "\x7b\x7bNEXT\x7d\x7d"

/-- The text in front of the value of the hidden field. -/
def nextMark : Str := "name=\"next\" value=\""

/-- The beginning of the form, up to that text. -/
def fieldsStart : Str := "\n    <form method=\"POST\" action=\"/login\">\n      <input type=\"hidden\" "

theorem loginFields_eq : loginFields = fieldsStart ++ nextMark := by decide +kernel

/-- The lines of a page, as the characters from which they are made. -/
theorem map_toList {lines : List String} {texts : List Str}
    (h : List.Forall₂ (fun line text => line = String.ofList text) lines texts) : lines.map String.toList = texts := by
  induction h with
  | nil => rfl
  | cons hline _ ih => rw [List.map_cons, ih, hline, String.toList_ofList]

/-- No two braces stand in a text, nor one at its end, and nothing in it is in front of the value. -/
def IsHead (text : Str) : Prop :=
  ∀ b ∈ text.tails, (b.head? = some '\x7b' → b.tail.head? ≠ none ∧ b.tail.head? ≠ some '\x7b') ∧
    (b ≠ [] → Str.startsWith (b ++ (fieldsStart ++ nextMark)) nextMark = false)

instance (text : Str) : Decidable (IsHead text) := List.decidableBAll _ _

private theorem isHead_loginHead : IsHead loginHead := by
  have hlines : ∃ texts, loginHead = List.intercalate ['\n'] texts ∧ IsHead (List.intercalate ['\n'] texts) := by
    apply Exists.intro
    constructor
    · apply congrArg (List.intercalate ['\n'])
      apply map_toList
      dsimp only
      -- line by line, as it is slow to take a literal apart by evaluation
      repeat (apply List.Forall₂.cons; exact rfl)
      apply List.Forall₂.nil
    · decide +kernel
  obtain ⟨texts, heq, h⟩ := hlines
  rw [heq]
  exact h

/-- There is no brace in the rest, and a quotation mark ends the value. -/
private theorem loginFoot_free :
    ∃ foot, loginFoot = Json.quoteMark :: foot ∧ '\x7b' ∉ foot := ⟨loginFoot.tail, by decide +kernel⟩

/-- So no mark starts in it. -/
theorem replace_append_loginHead {pat : Str} (hpat : pat.take 2 = ['\x7b', '\x7b']) (new s : Str) :
    Str.replace pat new (loginHead ++ s) = loginHead ++ Str.replace pat new s := by
  refine Str.replace_append fun b hne hsuffix => ?_
  obtain ⟨d, b, rfl⟩ := List.exists_cons_of_ne_nil hne
  rw [Bool.eq_false_iff]
  intro hstart
  obtain ⟨t, ht⟩ := Str.startsWith_iff.1 hstart
  obtain ⟨pat', rfl⟩ : ∃ pat', pat = '\x7b' :: '\x7b' :: pat' :=
    ⟨pat.drop 2, (List.take_append_drop 2 pat).symm.trans (congrArg (· ++ pat.drop 2) hpat)⟩
  obtain ⟨hd, hb⟩ := List.cons.inj ht
  obtain ⟨hnone, hbrace⟩ := (isHead_loginHead _ ((List.mem_tails _ _).2 hsuffix)).1 (congrArg some hd)
  cases b with
  | nil => exact hnone rfl
  | cons e b => exact hbrace (congrArg some (List.cons.inj hb).1)

theorem not_mem_loginFields : '\x7b' ∉ loginFields := by
  rw [loginFields_eq]
  decide +kernel

theorem replace_of_free {p : Char} {pat s : Str} (hp : pat.head? = some p) (h : p ∉ s) (new : Str) :
    Str.replace pat new s = s := by
  have hs := replace_append_of_free hp h new []
  rwa [List.append_nil, Str.replace_nil, List.append_nil] at hs

theorem startsWith_append_of_length_le {pat s : Str} (h : pat.length ≤ s.length) (r : Str) :
    Str.startsWith (s ++ r) pat = Str.startsWith s pat := by
  rw [Bool.eq_iff_iff, Str.startsWith_iff, Str.startsWith_iff]
  constructor
  · rintro ⟨t, ht⟩
    obtain ⟨u, rfl⟩ := List.prefix_of_prefix_length_le ⟨t, ht.symm⟩ (List.prefix_append s r) h
    exact ⟨u, rfl⟩
  · rintro ⟨u, rfl⟩
    exact ⟨u ++ r, List.append_assoc _ _ _⟩

theorem loginTemplate_eq : loginTemplate = loginHead ++ (errorMark ++ (loginFields ++ (pageMark ++ loginFoot))) := by
  unfold loginTemplate
  rw [List.append_assoc, List.append_assoc, List.append_assoc]
  rfl

/-- The page with the text for the page that was asked for in its place, and without an error. -/
theorem replace_loginTemplate (next : Str) :
    Str.replace errorMark [] (Str.replace pageMark next loginTemplate) =
      loginHead ++ (loginFields ++ (Str.replace errorMark [] next ++ loginFoot)) := by
  obtain ⟨foot, hfoot, hfree⟩ := loginFoot_free
  have hquote : '\x7b' ∉ loginFoot := by
    rw [hfoot, List.mem_cons, not_or]
    exact ⟨by decide, hfree⟩
  have herror : ∀ b ∈ errorMark.tails, b ≠ [] →
      Str.startsWith (b ++ (fieldsStart ++ (nextMark ++ (pageMark ++ loginFoot)))) pageMark = false := by
    have hshort : ∀ b ∈ errorMark.tails, b ≠ [] → pageMark.length ≤ (b ++ fieldsStart).length ∧
        Str.startsWith (b ++ fieldsStart) pageMark = false := by decide +kernel
    intro b hb hne
    rw [← List.append_assoc, startsWith_append_of_length_le (hshort b hb hne).1]
    exact (hshort b hb hne).2
  have hnext : Str.replace pageMark next loginTemplate =
      loginHead ++ (errorMark ++ (loginFields ++ (next ++ loginFoot))) := by
    rw [loginTemplate_eq, replace_append_loginHead rfl, loginFields_eq, List.append_assoc,
      Str.replace_append fun b hne hb => herror b ((List.mem_tails _ _).2 hb) hne, ← List.append_assoc fieldsStart,
      ← loginFields_eq, replace_append_of_free rfl not_mem_loginFields, Str.replace_append_self (by decide),
      replace_of_free rfl hquote]
  rw [hnext, replace_append_loginHead rfl, Str.replace_append_self (by decide), List.nil_append,
    replace_append_of_free rfl not_mem_loginFields, hfoot, Str.replace_append_of_not_mem (by decide) (by decide),
    replace_of_free rfl hfree]

/-- A text in which the pattern does not start, the pattern itself following, is split behind it. -/
theorem splitOnceStr_append {pat a : Str} (hpat : pat ≠ [])
    (h : ∀ b, b ≠ [] → b <:+ a → Str.startsWith (b ++ pat) pat = false) (r : Str) :
    Str.splitOnceStr pat (a ++ (pat ++ r)) = some (a, r) := by
  induction a with
  | nil =>
    obtain ⟨p, pat, rfl⟩ := List.exists_cons_of_ne_nil hpat
    exact Str.splitOnceStr_append List.not_mem_nil pat r
  | cons c a ih =>
    have hstart := h (c :: a) (List.cons_ne_nil _ _) (List.suffix_refl _)
    have hlength : pat.length ≤ (c :: a ++ pat).length := by rw [List.length_append]; omega
    rw [← startsWith_append_of_length_le hlength r, List.append_assoc, List.cons_append] at hstart
    have hnone : Str.stripPrefix pat (c :: (a ++ (pat ++ r))) = none :=
      Option.isNone_iff_eq_none.1 (Option.isSome_eq_false_iff.1 hstart)
    rw [List.cons_append, Str.splitOnceStr, hnone]
    dsimp only
    rw [ih fun b hne hb => h b hne (hb.trans (List.suffix_cons c a)), Option.map_some]

theorem splitOnceStr_page (r : Str) :
    Str.splitOnceStr nextMark (loginHead ++ (loginFields ++ r)) = some (loginHead ++ fieldsStart, r) := by
  have hfields : ∀ b ∈ fieldsStart.tails, b ≠ [] → Str.startsWith (b ++ nextMark) nextMark = false := by decide +kernel
  have hnone : ∀ b, b ≠ [] → b <:+ loginHead ++ fieldsStart → Str.startsWith (b ++ nextMark) nextMark = false := by
    rintro b hne ⟨x, hx⟩
    rcases List.append_eq_append_iff.1 hx with ⟨e, hhead, rfl⟩ | ⟨e, -, hstart⟩
    · cases e with
      | nil => exact hfields _ ((List.mem_tails _ _).2 (List.suffix_refl _)) hne
      | cons c e =>
        rw [List.append_assoc]
        exact (isHead_loginHead _ ((List.mem_tails _ _).2 ⟨x, hhead.symm⟩)).2 (List.cons_ne_nil c e)
    · refine hfields b ((List.mem_tails _ _).2 ?_) hne
      rw [hstart]
      exact List.suffix_append e b
  rw [loginFields_eq, List.append_assoc, ← List.append_assoc loginHead]
  exact splitOnceStr_append (by decide) hnone r

/-- A field of the page with an escaped text has that text as its value. -/
theorem attributeBehind_page {text : Str} (hreturn : '\r' ∉ text) (hnull : Char.ofNat 0 ∉ text) :
    Browser.attributeBehind nextMark (loginHead ++ (loginFields ++ (htmlEscape text ++ loginFoot))) = some text := by
  have hout : ∀ {c}, c ∉ text → c ∉ referenceChars → c ∉ htmlEscape text := by
    intro c htext hletters hmem
    rcases mem_htmlEscape hmem with ⟨hc, -⟩ | hc
    · exact htext hc
    · exact hletters hc
  have hquote : ∀ c ∈ htmlEscape text, (decide (c ≠ Json.quoteMark)) = true := by
    intro c hc
    rw [decide_eq_true_eq]
    rcases mem_htmlEscape hc with ⟨-, hne⟩ | hletter
    · exact hne
    · rintro rfl
      exact absurd hletter (by decide)
  have hfoot : loginFoot.takeWhile (fun c => decide (c ≠ Json.quoteMark)) = [] := by decide +kernel
  unfold Browser.attributeBehind
  rw [splitOnceStr_page, Option.map_some, List.takeWhile_append_of_pos hquote, hfoot, List.append_nil,
    Browser.preprocess_eq (hout hreturn (by decide)) (hout hnull (by decide)), readReferences_htmlEscape]

/-! ### Coming back to the page that was asked for -/

/-- The form that a browser submits which was sent to `location`, and whose user enters the token. -/
def signInForm (location token : Str) : Option LoginForm :=
  let page := getLogin ((Str.splitOnce '?' location).map Prod.snd)
  (Browser.attributeBehind nextMark page).bind fun value =>
    LoginForm.ofBody (Browser.formBody [("next", value), ("token", token)])

/-- The page which a request asked for. -/
def pageOf (req : AdminRequest) : Str := req.uri.pathAndQuery.getD "/"

/-- Where a browser is sent to the form by the layer, signing in leads back to the page.  A token which is entered has
no line break. -/
def Returns (parse : Str → Option Url) (lan : Option Str) (config : Config) (req : AdminRequest) (token : Str) : Prop :=
  ∀ location, Auth.adminAuthLayer parse lan config req = .redirect location →
    Str.startsWith (pageOf req) "/login" = false → '\n' ∉ token →
    Auth.configuredAdminToken config = some token.trim →
    ∃ form setCookie, signInForm location token = some form ∧ postLogin config form = .signedIn (pageOf req) setCookie

/-- The condition on a page: it may stand in a field, the guard lets it pass, and the template has no mark in it. -/
structure Returnable (page : Str) : Prop where
  field : page.all isFieldChar = true
  slash : ∃ rest, page = '/' :: rest ∧ rest.head? ≠ some '/'
  unmarked : Str.contains errorMark page = false

theorem adminAuthLayer_redirect {parse : Str → Option Url} {lan : Option Str} {config : Config} {req : AdminRequest}
    {location : Str} (h : Auth.adminAuthLayer parse lan config req = .redirect location) :
    location = ("/login?next=" : Str) ++ Auth.encodeNextParam (pageOf req) := by
  unfold Auth.adminAuthLayer at h
  dsimp only at h
  split at h
  · cases h
  · split at h
    · cases h
    · split at h
      · cases h
      · split at h
        · split at h <;> cases h
        · split at h
          · exact (Auth.Decision.redirect.inj h).symm
          · cases h

/-- The form which is submitted has the page in it, as far as guard and template leave it. -/
theorem signInForm_eq {page token : Str} (hfield : page.all isFieldChar = true) (htoken : '\n' ∉ token) :
    signInForm (("/login?next=" : Str) ++ Auth.encodeNextParam page) token =
      some ⟨token, some (Str.replace errorMark [] (sanitizeNext page))⟩ := by
  have hlocation : ("/login?next=" : Str) = ("/login" : Str) ++ '?' :: ("next=" : Str) := by decide
  have hquery : Str.splitOnce '?' (("/login?next=" : Str) ++ Auth.encodeNextParam page) =
      some (("/login" : Str), ("next=" : Str) ++ Auth.encodeNextParam page) := by
    rw [hlocation, List.append_assoc]
    exact Str.splitOnce_append (by decide) _
  have hpage : getLogin (some (("next=" : Str) ++ Auth.encodeNextParam page)) =
      loginHead ++ (loginFields ++ (htmlEscape (Str.replace errorMark [] (sanitizeNext page)) ++ loginFoot)) := by
    have hescape : Str.replace errorMark [] (htmlEscape (sanitizeNext page)) =
        htmlEscape (Str.replace errorMark [] (sanitizeNext page)) :=
      replace_htmlEscape (by decide) (by decide) _
    unfold getLogin
    rw [Option.getD_some, formPairs_next, ← hescape, ← replace_loginTemplate]
    rfl
  have hfree : ∀ c, isFieldChar c = false → c ∉ Str.replace errorMark [] (sanitizeNext page) := by
    intro c hc
    refine Str.not_mem_replace (by decide) List.not_mem_nil fun hmem => ?_
    have hin : ∀ d ∈ sanitizeNext page, isFieldChar d = true := by
      by_cases hpass : Passes page
      · rw [sanitizeNext_of_passes hpass]
        exact List.all_eq_true.1 hfield
      · rw [sanitizeNext_of_not_passes hpass]
        decide
    rw [hin c hmem] at hc
    cases hc
  have hnext : '\n' ∉ ("next" : Str) := by decide
  have htokenName : '\n' ∉ ("token" : Str) := by decide
  have hfields := @formPairs_formBody [("next", Str.replace errorMark [] (sanitizeNext page)), ("token", token)]
    (List.cons_ne_nil _ _) (by
      intro field hmem
      rw [List.mem_cons, List.mem_singleton] at hmem
      rcases hmem with rfl | rfl
      · exact ⟨hnext, hfree _ (by decide)⟩
      · exact ⟨htokenName, htoken⟩)
  unfold signInForm
  dsimp only
  rw [hquery, Option.map_some, hpage, attributeBehind_page (hfree _ (by decide)) (hfree _ (by decide)),
    Option.bind_some, LoginForm.ofBody, hfields]
  rfl

theorem passes_root : Passes "/" := ⟨[], rfl, by decide, by decide⟩

/-- What the guard makes of a page without its marks is the page exactly if both leave it alone. -/
theorem sanitizeNext_replace_iff {page : Str} :
    sanitizeNext (Str.replace errorMark [] (sanitizeNext page)) = page ↔
      Passes page ∧ Str.contains errorMark page = false := by
  constructor
  · intro h
    have hpass : Passes page := by
      by_contra hnot
      rw [sanitizeNext_of_not_passes hnot] at h
      have hroot : sanitizeNext (Str.replace errorMark [] "/") = "/" := by decide
      exact hnot (h.symm.trans hroot ▸ passes_root)
    rw [sanitizeNext_of_passes hpass] at h
    refine ⟨hpass, ?_⟩
    by_cases hkept : Passes (Str.replace errorMark [] page)
    · rw [sanitizeNext_of_passes hkept] at h
      have hshorter : (([] : Str)).length < errorMark.length := by decide
      exact Str.contains_of_length_replace (by decide) hshorter (by rw [h])
    · rw [sanitizeNext_of_not_passes hkept] at h
      rw [← h]
      decide
  · rintro ⟨hpass, hunmarked⟩
    rw [sanitizeNext_of_passes hpass, Str.replace_of_not_contains hunmarked, sanitizeNext_of_passes hpass]

/-- Signing in leads back exactly to the returnable pages. -/
theorem returns_iff (parse : Str → Option Url) (lan : Option Str) (config : Config) (req : AdminRequest) (token : Str) :
    Returns parse lan config req token ↔
      ∀ location, Auth.adminAuthLayer parse lan config req = .redirect location →
        Str.startsWith (pageOf req) "/login" = false → '\n' ∉ token →
        Auth.configuredAdminToken config = some token.trim →
        token.trim.all isFieldChar = true ∧ Returnable (pageOf req) := by
  refine forall_congr' fun location => forall_congr' fun hlayer => forall_congr' fun hlogin =>
      forall_congr' fun htoken =>
    forall_congr' fun hconfig => ?_
  rw [adminAuthLayer_redirect hlayer]
  constructor
  · rintro ⟨form, setCookie, hform, hanswer⟩
    obtain ⟨hexpected, hlocation, hcookie, hfield, hfields⟩ := postLogin_signedIn hanswer
    rw [signInForm_eq hfield htoken] at hform
    obtain rfl := Option.some.inj hform
    obtain ⟨⟨rest, hrest, hhead, -⟩, hunmarked⟩ := sanitizeNext_replace_iff.1 hlocation.symm
    rw [hcookie, List.all_append, List.all_append, Bool.and_eq_true, Bool.and_eq_true] at hfields
    exact ⟨hfields.1.2, hfield, ⟨rest, hrest, hhead⟩, hunmarked⟩
  · rintro ⟨htokenField, hfield, ⟨rest, hrest, hhead⟩, hunmarked⟩
    have hback := sanitizeNext_replace_iff.2 ⟨⟨rest, hrest, hhead, hlogin⟩, hunmarked⟩
    have hanswer :=
      @postLogin_of_token config ⟨token, some (Str.replace errorMark [] (sanitizeNext (pageOf req)))⟩ hconfig
      (by rw [Option.getD_some, hback]; exact hfield) htokenField
    rw [Option.getD_some, hback] at hanswer
    exact ⟨_, _, signInForm_eq hfield htoken, hanswer⟩

/-- Signing in stays on the site and comes back exactly as far as the guard and the template let it. -/
theorem signIn_iff (origins : Str → Option Browser.Origin) (base : Browser.Origin) (parse : Str → Option Url)
    (lan : Option Str) (config : Config) :
    (∀ next, StaysOnSite origins base next ↔ SafeNext origins base next) ∧
      ∀ req token, Returns parse lan config req token ↔
        ∀ location, Auth.adminAuthLayer parse lan config req = .redirect location →
          Str.startsWith (pageOf req) "/login" = false → '\n' ∉ token →
          Auth.configuredAdminToken config = some token.trim →
          token.trim.all isFieldChar = true ∧ Returnable (pageOf req) :=
  ⟨staysOnSite_iff origins base, returns_iff parse lan config⟩

/-- The origins of two texts with a scheme. -/
def twoSites (text : Str) : Option Browser.Origin :=
  if text = ("http://127.0.0.1:8080" : Str) then some ⟨"http", "127.0.0.1", 8080⟩
  else if text = ("http://evil.example" : Str) then some ⟨"http", "evil.example", 80⟩
  else none

/-- A backslash behind the slash leads to another site. -/
theorem not_staysOnSite : ¬ ∀ origins base next, StaysOnSite origins base next := by
  intro h
  have hanswer : postLogin someConfig ⟨"t", some "/\\evil.example"⟩ =
      .signedIn "/\\evil.example" "oproxy_admin_token=t; HttpOnly; SameSite=Strict; Path=/" := by decide
  have hstays := h twoSites ⟨"http", "127.0.0.1", 8080⟩ _ _ _ _ _ hanswer
  have hleaves : Browser.resolveOrigin twoSites ⟨"http", "127.0.0.1", 8080⟩ "/\\evil.example" =
      some ⟨"http", "evil.example", 80⟩ := by decide
  exact absurd (hleaves.symm.trans hstays) (by decide)

end Login

end Oproxy
