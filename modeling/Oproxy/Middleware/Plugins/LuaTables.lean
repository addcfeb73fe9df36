import Mathlib.Data.List.Perm.Subperm
import Oproxy.Middleware.Plugins.LuaEngine

/-!
# The tables of Lua scripts (`middleware/plugins/lua_engine.rs`)

What a script leaves in its header table is written over the map from which the table was made.  A field which the
script has deleted stays in the map, and one which it has assigned in another case comes beside the old one.
-/

namespace Oproxy

namespace LuaEngine

/-! ### Tables of header fields -/

/-- The script has assigned an entry of the table it leaves. -/
def isAssigned (injected : IndexMap Str Str) (e : Str × Str) : Bool := injected.get? e.1 != some e.2

/-- An entry which the script has left as it was, under a name which it has assigned in another case. -/
def isReplaced (injected left : IndexMap Str Str) (e : Str × Str) : Bool :=
  !isAssigned injected e && left.entries.any fun e' => isAssigned injected e' && e'.1.eqIgnoreAsciiCase e.1

/-- The header fields for which a table stands that a script leaves. -/
def fieldsLeft (injected left : IndexMap Str Str) : List (Str × Str) :=
  (left.entries.filter fun e => !isReplaced injected left e).map fun e => (e.1.toAsciiLowercase, e.2)

/-- The fields of a header map which is made of a map. -/
def fieldsOf (headers : IndexMap Str Str) : List (Str × Str) := (HeaderMap.ofMap headers).entries

/-- The script has deleted no field, and assigned none in another case than that of an entry which it has left as it
was. -/
def KeepsNames (injected left : IndexMap Str Str) : Prop :=
  (∀ k ∈ injected.keys, k ∈ left.keys) ∧ ∀ e ∈ left.entries, isReplaced injected left e = false

/-- The map with a table written over it. -/
def written (injected left : IndexMap Str Str) : IndexMap Str Str := insertPairs injected (some left.entries)

theorem get?_written (injected left : IndexMap Str Str) (k : Str) :
    (written injected left).get? k = (left.get? k).or (injected.get? k) := by
  unfold written insertPairs
  rw [Option.getD_some, IndexMap.get?_insertAll, IndexMap.filter_key]
  cases left.get? k with
  | none => rfl
  | some v => rfl

theorem mem_iff_get? {m : IndexMap Str Str} {e : Str × Str} : e ∈ m.entries ↔ m.get? e.1 = some e.2 :=
  ⟨IndexMap.get?_of_mem, IndexMap.mem_of_get?⟩

theorem entries_nodup (m : IndexMap Str Str) : m.entries.Nodup := List.Nodup.of_map Prod.fst m.nodup

/-- What is written over a map is in it. -/
theorem subset_written (injected left : IndexMap Str Str) : left.entries ⊆ (written injected left).entries := by
  intro e he
  rw [mem_iff_get?, get?_written, mem_iff_get?.1 he]
  rfl

theorem perm_written_iff (injected left : IndexMap Str Str) :
    (written injected left).entries.Perm left.entries ↔ ∀ k ∈ injected.keys, k ∈ left.keys := by
  constructor
  · intro hperm k hk
    have hwritten : (written injected left).contains k = true := by
      unfold IndexMap.contains
      rw [get?_written, Option.isSome_or, ← IndexMap.contains, ← IndexMap.contains, IndexMap.contains_iff.2 hk,
        Bool.or_true]
    exact (hperm.map Prod.fst).subset (IndexMap.contains_iff.1 hwritten)
  · intro hkeys
    refine (List.perm_ext_iff_of_nodup (entries_nodup _) (entries_nodup _)).2 fun e => ⟨fun he => ?_, fun he =>
      subset_written injected left he⟩
    rw [mem_iff_get?, get?_written] at he
    cases hleft : left.get? e.1 with
    | some v =>
      rw [hleft] at he
      exact mem_iff_get?.2 (hleft.trans he)
    | none =>
      rw [hleft, Option.none_or] at he
      have hkey : e.1 ∈ left.keys := hkeys _ (List.mem_map.2 ⟨e, mem_iff_get?.2 he, rfl⟩)
      rw [← IndexMap.contains_iff, IndexMap.contains, hleft] at hkey
      cases hkey

/-- The map has the fields of the table exactly where the script keeps the names. -/
theorem fieldsOf_written_iff (injected left : IndexMap Str Str) :
    (fieldsOf (written injected left)).Perm (fieldsLeft injected left) ↔ KeepsNames injected left := by
  unfold fieldsOf fieldsLeft HeaderMap.ofMap
  rw [HeaderMap.entries_fromIter]
  constructor
  · intro hperm
    have hlength := hperm.length_eq
    rw [List.length_map, List.length_map] at hlength
    have hsub : left.entries.Subperm (written injected left).entries :=
      List.subperm_of_subset (entries_nodup left) (subset_written injected left)
    have hfilter := List.length_filter_le (fun e => !isReplaced injected left e) left.entries
    have hle := hsub.length_le
    have hall : (left.entries.filter fun e => !isReplaced injected left e).length = left.entries.length := by omega
    refine ⟨(perm_written_iff injected left).1 (hsub.perm_of_length_le (by omega)).symm, fun e he => ?_⟩
    simpa using List.length_filter_eq_length_iff.1 hall e he
  · rintro ⟨hkeys, hreplaced⟩
    have hfilter : (left.entries.filter fun e => !isReplaced injected left e) = left.entries := by
      refine List.filter_eq_self.2 fun e he => ?_
      rw [hreplaced e he]
      rfl
    rw [hfilter]
    exact ((perm_written_iff injected left).2 hkeys).map _

/-! ### Runs of scripts -/

section

variable {S : Type}

/-- What the scripts work on: the header table, and the rest of the message. -/
abbrev Tables (S : Type) := S × IndexMap Str Str

/-- The state after a script; one which fails has left no tables. -/
def next (run : LuaScript → Tables S → Option (Tables S)) (state : Tables S) (script : LuaScript) : Tables S :=
  match run script state with
  | none => state
  | some left => (left.1, written state.2 left.2)

/-- After each script the state is what the script has left, and a script which fails has left nothing; `after` is the
state after some of the scripts. -/
structure EachLeft (run : LuaScript → Tables S → Option (Tables S)) (after : List LuaScript → Tables S)
    (scripts : List LuaScript) : Prop where
  fails : ∀ before script rest, scripts = before ++ script :: rest → run script (after before) = none →
    after (before ++ [script]) = after before
  leaves : ∀ before script rest left, scripts = before ++ script :: rest → run script (after before) = some left →
    (after (before ++ [script])).1 = left.1 ∧
      (fieldsOf (after (before ++ [script])).2).Perm (fieldsLeft (after before).2 left.2)

/-- Every script keeps the names of its table. -/
def AllKeepNames (run : LuaScript → Tables S → Option (Tables S)) : List LuaScript → Tables S → Prop
  | [], _ => True
  | script :: scripts, state =>
    match run script state with
    | none => AllKeepNames run scripts state
    | some left => KeepsNames state.2 left.2 ∧ AllKeepNames run scripts (left.1, written state.2 left.2)

variable {run : LuaScript → Tables S → Option (Tables S)}

theorem allKeepNames_iff (scripts : List LuaScript) (state : Tables S) :
    AllKeepNames run scripts state ↔ ∀ before script rest left, scripts = before ++ script :: rest →
      run script (before.foldl (next run) state) = some left → KeepsNames (before.foldl (next run) state).2 left.2 := by
  induction scripts generalizing state with
  | nil => exact iff_of_true trivial fun before script rest left h => absurd h (by simp)
  | cons script scripts ih =>
    have hhead : (∀ left, run script state = some left → KeepsNames state.2 left.2) ∧
        AllKeepNames run scripts (next run state script) ↔ AllKeepNames run (script :: scripts) state := by
      unfold next
      conv_rhs => unfold AllKeepNames
      cases run script state with
      | none => simp
      | some left => simp
    rw [← hhead, ih]
    constructor
    · rintro ⟨hfirst, hrest⟩ before script' rest left hscripts hrun
      cases before with
      | nil =>
        cases hscripts
        exact hfirst left hrun
      | cons first before =>
        cases hscripts
        exact hrest before script' rest left rfl hrun
    · intro h
      refine ⟨fun left hrun => h [] script scripts left rfl hrun, fun before script' rest left hscripts hrun => ?_⟩
      subst hscripts
      exact h (script :: before) script' rest left rfl hrun

/-- A run leaves after each script what the script has left exactly where every script keeps the names. -/
theorem eachLeft_iff {after : List LuaScript → Tables S} {state : Tables S} {scripts : List LuaScript}
    (hafter : ∀ before, after before = before.foldl (next run) state) :
    EachLeft run after scripts ↔ AllKeepNames run scripts state := by
  have hnext : ∀ before script, after (before ++ [script]) = next run (after before) script := by
    intro before script
    rw [hafter, hafter, List.foldl_concat]
  have hwritten : ∀ before script left, run script (after before) = some left →
      after (before ++ [script]) = (left.1, written (after before).2 left.2) := by
    intro before script left hrun
    rw [hnext]
    unfold next
    rw [hrun]
  rw [allKeepNames_iff]
  constructor
  · rintro ⟨-, hleaves⟩ before script rest left hscripts hrun
    rw [← hafter] at hrun ⊢
    have hleft := (hleaves before script rest left hscripts hrun).2
    rw [hwritten before script left hrun] at hleft
    exact (fieldsOf_written_iff _ _).1 hleft
  · intro h
    constructor
    · intro before script rest _ hrun
      rw [hnext]
      unfold next
      rw [hrun]
    · intro before script rest left hscripts hrun
      rw [hwritten before script left hrun]
      refine ⟨rfl, (fieldsOf_written_iff _ _).2 ?_⟩
      rw [hafter] at hrun ⊢
      exact h before script rest left hscripts hrun

/-- Each script gets the tables which the last one before it has left, and the message gets those of the last one of
all. -/
structure ForwardsLeft (run : LuaScript → Tables S → Option (Tables S)) (after : List LuaScript → Tables S)
    (scripts : List LuaScript) (holds : S → Prop) (fields : List (Str × Str)) : Prop where
  each : EachLeft run after scripts
  last : ∀ before script rest left, scripts = before ++ script :: rest → run script (after before) = some left →
    (∀ others other rest', rest = others ++ other :: rest' → run other (after (before ++ script :: others)) = none) →
    holds left.1 ∧ fields.Perm (fieldsLeft (after before).2 left.2)

theorem foldl_next_of_fails {scripts : List LuaScript} {state : Tables S}
    (h : ∀ others other rest, scripts = others ++ other :: rest → run other (others.foldl (next run) state) = none) :
    scripts.foldl (next run) state = state := by
  induction scripts with
  | nil => rfl
  | cons script scripts ih =>
    have hfirst : next run state script = state := by
      unfold next
      have hnone : run script state = none := h [] script scripts rfl
      rw [hnone]
    rw [List.foldl_cons, hfirst]
    apply ih
    intro others other rest hscripts
    have hother := h (script :: others) other rest (by rw [hscripts]; rfl)
    rw [List.foldl_cons, hfirst] at hother
    exact hother

theorem forwardsLeft_iff {after : List LuaScript → Tables S} {state : Tables S} {scripts : List LuaScript}
    {holds : S → Prop} {fields : List (Str × Str)} (hafter : ∀ before, after before = before.foldl (next run) state)
    (hmessage : scripts ≠ [] → holds (after scripts).1 ∧ fields = fieldsOf (after scripts).2) :
    ForwardsLeft run after scripts holds fields ↔ AllKeepNames run scripts state := by
  rw [← eachLeft_iff hafter]
  constructor
  · exact ForwardsLeft.each
  · intro heach
    refine ⟨heach, fun before script rest left hscripts hrun hfails => ?_⟩
    have hlast : after scripts = after (before ++ [script]) := by
      rw [hafter, hafter, hscripts, List.append_cons, List.foldl_append]
      apply foldl_next_of_fails
      intro others other rest' hrest
      have hother := hfails others other rest' hrest
      rw [hafter, List.append_cons, List.foldl_append] at hother
      exact hother
    have hsome : scripts ≠ [] := by
      rw [hscripts]
      exact List.append_ne_nil_of_right_ne_nil _ (List.cons_ne_nil _ _)
    obtain ⟨hholds, hfields⟩ := hmessage hsome
    obtain ⟨hrest, hperm⟩ := heach.leaves before script rest left hscripts hrun
    rw [hlast, hrest] at hholds
    rw [hfields, hlast]
    exact ⟨hholds, hperm⟩

end

/-! ### Requests and responses -/

/-- Scripts whose tables hold texts, and which do not abort. -/
def ofTables (request : (code method uri : Str) → Tables Str → Option (Tables Str))
    (response : (code : Str) → Tables (Nat × Str) → Option (Tables (UInt16 × Str))) : LuaVm where
  request code method uri body headers :=
    (request code method uri (body, headers)).map fun left => ⟨none, some left.1, some left.2.entries⟩
  response code status body headers :=
    (response code ((status, body), headers)).map fun left =>
      ⟨some left.1.1.toNat, some left.1.2, some left.2.entries⟩

section

variable (request : (code method uri : Str) → Tables Str → Option (Tables Str))
  (response : (code : Str) → Tables (Nat × Str) → Option (Tables (UInt16 × Str)))

def requestScript (ctx : RequestContext) (script : LuaScript) : Tables Str → Option (Tables Str) :=
  request script.code ctx.method ctx.uri

def responseScript (script : LuaScript) (state : Tables (Nat × Str)) : Option (Tables (Nat × Str)) :=
  (response script.code state).map fun left => ((left.1.1.toNat, left.1.2), left.2)

/-- What some of the scripts make of a request. -/
def requestAfter (ctx : RequestContext) (scripts : List LuaScript) : Tables Str :=
  let outcome := runRequestScripts (ofTables request response) ctx.method ctx.uri scripts ctx.bodyText ctx.headers.toMap
  (outcome.body, outcome.headers)

def responseAfter (ctx : ResponseContext) (scripts : List LuaScript) : Tables (Nat × Str) :=
  let outcome := runResponseScripts (ofTables request response) scripts ctx.status ctx.bodyText ctx.headers.toMap
  ((outcome.status, outcome.body), outcome.headers)

/-- The request that is forwarded has the tables which the scripts have left. -/
def RequestForwarded (scripts : List LuaScript) (ctx : RequestContext) : Prop :=
  ForwardsLeft (requestScript request ctx) (requestAfter request response ctx) (scripts.filter LuaScript.enabled)
    (fun body => (onRequest (ofTables request response) scripts ctx).1.body = body.toUtf8)
    (onRequest (ofTables request response) scripts ctx).1.headers.entries

def ResponseForwarded (scripts : List LuaScript) (ctx : ResponseContext) : Prop :=
  ForwardsLeft (responseScript response) (responseAfter request response ctx) (scripts.filter LuaScript.enabled)
    (fun message => (onResponse (ofTables request response) scripts ctx).1.status = message.1 ∧
      (onResponse (ofTables request response) scripts ctx).1.body = message.2.toUtf8)
    (onResponse (ofTables request response) scripts ctx).1.headers.entries

variable {request response}

theorem runRequestScripts_eq (ctx : RequestContext) (scripts : List LuaScript) (body : Str)
    (headers : IndexMap Str Str) :
    runRequestScripts (ofTables request response) ctx.method ctx.uri scripts body headers =
      ⟨(scripts.foldl (next (requestScript request ctx)) (body, headers)).1,
        (scripts.foldl (next (requestScript request ctx)) (body, headers)).2, none⟩ := by
  induction scripts generalizing body headers with
  | nil => rfl
  | cons script scripts ih =>
    have hscript : (ofTables request response).request script.code ctx.method ctx.uri body headers =
        (requestScript request ctx script (body, headers)).map fun left =>
          ⟨none, some left.1, some left.2.entries⟩ := rfl
    unfold runRequestScripts
    rw [hscript, List.foldl_cons]
    unfold next
    cases requestScript request ctx script (body, headers) with
    | none => exact ih body headers
    | some left => exact ih left.1 (written headers left.2)

theorem runResponseScripts_eq (scripts : List LuaScript) (status : Nat) (body : Str) (headers : IndexMap Str Str) :
    runResponseScripts (ofTables request response) scripts status body headers =
      ⟨(scripts.foldl (next (responseScript response)) ((status, body), headers)).1.1,
        (scripts.foldl (next (responseScript response)) ((status, body), headers)).1.2,
        (scripts.foldl (next (responseScript response)) ((status, body), headers)).2⟩ := by
  induction scripts generalizing status body headers with
  | nil => rfl
  | cons script scripts ih =>
    unfold runResponseScripts
    rw [List.foldl_cons]
    unfold next responseScript ofTables
    dsimp only
    cases response script.code ((status, body), headers) with
    | none => exact ih status body headers
    | some left => exact ih left.1.1.toNat left.1.2 (written headers left.2)

theorem requestForwarded_iff (scripts : List LuaScript) (ctx : RequestContext) :
    RequestForwarded request response scripts ctx ↔
      AllKeepNames (requestScript request ctx) (scripts.filter LuaScript.enabled)
        (ctx.bodyText, ctx.headers.toMap) := by
  refine forwardsLeft_iff (fun before => ?_) fun hsome => ?_
  · unfold requestAfter
    rw [runRequestScripts_eq]
  · unfold onRequest requestAfter
    simp only [List.isEmpty_eq_false_iff.2 hsome, Bool.false_eq_true, if_false, runRequestScripts_eq]
    exact ⟨rfl, rfl⟩

theorem responseForwarded_iff (scripts : List LuaScript) (ctx : ResponseContext) :
    ResponseForwarded request response scripts ctx ↔
      AllKeepNames (responseScript response) (scripts.filter LuaScript.enabled)
        ((ctx.status, ctx.bodyText), ctx.headers.toMap) := by
  refine forwardsLeft_iff (fun before => ?_) fun hsome => ?_
  · unfold responseAfter
    rw [runResponseScripts_eq]
  · unfold onResponse responseOutcome responseAfter
    simp only [List.isEmpty_eq_false_iff.2 hsome, Bool.false_eq_true, if_false, runResponseScripts_eq]
    exact ⟨⟨trivial, rfl⟩, rfl⟩

/-- What the scripts leave is forwarded exactly where each of them keeps the names of its table. -/
theorem tablesForwarded_iff (request : (code method uri : Str) → Tables Str → Option (Tables Str))
    (response : (code : Str) → Tables (Nat × Str) → Option (Tables (UInt16 × Str))) (scripts : List LuaScript)
    (requestCtx : RequestContext) (responseCtx : ResponseContext) :
    (RequestForwarded request response scripts requestCtx ↔
        AllKeepNames (requestScript request requestCtx) (scripts.filter LuaScript.enabled)
          (requestCtx.bodyText, requestCtx.headers.toMap)) ∧
      (ResponseForwarded request response scripts responseCtx ↔
        AllKeepNames (responseScript response) (scripts.filter LuaScript.enabled)
          ((responseCtx.status, responseCtx.bodyText), responseCtx.headers.toMap)) :=
  ⟨requestForwarded_iff scripts requestCtx, responseForwarded_iff scripts responseCtx⟩

end

/-! ### A script which deletes a field -/

private def withoutHeaders (tables : Tables Str) : Option (Tables Str) := some (tables.1, IndexMap.empty)

private def deleting : LuaScript := ⟨"l1", "delete", "request.headers[\"cookie\"] = nil", true⟩

private def withCookie : RequestContext :=
  { RequestContext.default with headers := HeaderMap.new.insert "cookie" "a=1" }

/-- The cookie is forwarded although the script has deleted it. -/
theorem not_tablesForwarded :
    ¬ ∀ (request : (code method uri : Str) → Tables Str → Option (Tables Str))
      (response : (code : Str) → Tables (Nat × Str) → Option (Tables (UInt16 × Str))) (scripts : List LuaScript)
      (requestCtx : RequestContext) (responseCtx : ResponseContext),
      RequestForwarded request response scripts requestCtx ∧
        ResponseForwarded request response scripts responseCtx := by
  intro h
  have hkeeps := (requestForwarded_iff [deleting] withCookie).1
    (h (fun _ _ _ => withoutHeaders) (fun _ _ => none) [deleting] withCookie ResponseContext.default).1
  have hnames : KeepsNames withCookie.headers.toMap IndexMap.empty := hkeeps.1
  exact absurd (hnames.1 "cookie" (by decide)) (by decide)

end LuaEngine

end Oproxy
