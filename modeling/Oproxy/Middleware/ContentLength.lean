import Oproxy.Middleware.Plugins.AccessControl
import Oproxy.Middleware.Plugins.Breakpoints
import Oproxy.Middleware.Plugins.DnsOverride
import Oproxy.Middleware.Plugins.LuaEngine
import Oproxy.Middleware.Plugins.MapLocal
import Oproxy.Middleware.Plugins.MapRemote
import Oproxy.Middleware.Plugins.Mock
import Oproxy.Middleware.Plugins.Rules

/-!
# The declared length of a message

What each plugin does to the `content-length` of a response, and to the length of its body.  A plugin which answers a
request declares the length of its answer, if any.  On the response side a rewrite rule which changes the body drops
the length; scripts and the operator at a breakpoint keep it, whatever they make of the body.
-/

namespace Oproxy

namespace ContentLength

/-- The number which a text of digits stands for. -/
def declared (t : Str) : Option Nat :=
  if t.isEmpty || !t.all Str.isAsciiDigit then none else some (Nat.ofDigitChars 10 t 0)

theorem digits_of_declared {t : Str} {n : Nat} (h : declared t = some n) : t.all Str.isAsciiDigit = true := by
  unfold declared at h
  by_contra hdigits
  rw [Bool.not_eq_true] at hdigits
  rw [hdigits, Bool.not_false, Bool.or_true, if_pos rfl] at h
  cases h

theorem declared_ofNat (n : Nat) : declared (Str.ofNat n) = some n := by
  have hall : (Str.ofNat n).all Str.isAsciiDigit = true :=
    List.all_eq_true.2 fun c hc => Str.isAsciiDigit_of_mem_ofNat hc
  have hne : (Str.ofNat n).isEmpty = false := by simpa using Str.ofNat_ne_nil n
  unfold declared
  rw [hall, hne]
  exact congrArg some (Nat.ofDigitChars_ten_toDigits)

/-- A field says the same in bytes as in text. -/
theorem declared_toUtf8 {text : Str} {n : Nat} :
    (Http.HeaderValue.toStr text.toUtf8).bind declared = some n ↔ declared text = some n := by
  constructor
  · intro h
    obtain ⟨read, hread, hdeclared⟩ := Option.bind_eq_some_iff.1 h
    have hvisible : text.toUtf8.all Http.isVisibleAscii = true := by
      by_contra hnot
      unfold Http.HeaderValue.toStr at hread
      rw [if_neg hnot] at hread
      cases hread
    have hsame := Http.HeaderValue.toUtf8_textOrEmpty text.toUtf8
    rw [if_pos hvisible, Http.HeaderValue.textOrEmpty, hread, Option.getD_some, Utf8.toUtf8_inj] at hsame
    rw [← hsame]
    exact hdeclared
  · intro h
    rw [Http.HeaderValue.toStr_toUtf8_of_digits (digits_of_declared h)]
    exact h

def isName (name : Str) : Bool := name.eqIgnoreAsciiCase "content-length"

/-- The values of `content-length`. -/
def fields (headers : HeaderMap) : List Str := headers.getAll "content-length"

/-- Every `content-length` says `n`. -/
def Declares (n : Nat) (headers : HeaderMap) : Prop := ∀ t ∈ fields headers, declared t = some n

theorem Declares.of_subset {n : Nat} {headers headers' : HeaderMap} (h : Declares n headers)
    (hsub : fields headers' ⊆ fields headers) : Declares n headers' := fun t ht => h t (hsub ht)

theorem Declares.of_eq_nil {n : Nat} {headers : HeaderMap} (h : fields headers = []) : Declares n headers := by
  intro t ht
  rw [h] at ht
  cases ht

private theorem isName_iff {name : Str} :
    isName name = true ↔ name.toAsciiLowercase = Str.toAsciiLowercase "content-length" := Str.eqIgnoreAsciiCase_iff

theorem fields_insert (headers : HeaderMap) (name value : Str) :
    fields (headers.insert name value) = if isName name = true then [value] else fields headers := by
  unfold fields
  rw [HeaderMap.getAll_insert]
  by_cases hname : isName name = true
  · rw [if_pos hname, if_pos (isName_iff.1 hname)]
  · rw [if_neg hname, if_neg fun h => hname (isName_iff.2 h)]

theorem fields_remove (headers : HeaderMap) (name : Str) :
    fields (headers.remove name) = if isName name = true then [] else fields headers := by
  unfold fields
  rw [HeaderMap.getAll_remove]
  by_cases hname : isName name = true
  · rw [if_pos hname, if_pos (isName_iff.1 hname)]
  · rw [if_neg hname, if_neg fun h => hname (isName_iff.2 h)]

/-! ### Rewrite rules -/

section Rewrite

variable {regex : RegexEngine}

/-- An action which writes a length of its own. -/
def assigns : RewriteAction → Bool
  | .setHeader name _ => isName name
  | .appendHeader name _ => isName name
  | _ => false

/-- An action which drops the length of a response with the given text. -/
def drops (regex : RegexEngine) (text : Str) : RewriteAction → Bool
  | .removeHeader name => isName name
  | .replaceBody pattern replacement => (regex pattern).any fun r => r.replaceAll text replacement ≠ text
  | _ => false

/-- What rewriting does to length and body: the length is dropped, or neither changes. -/
def Edits (dropped : Bool) (ctx ctx' : ResponseContext) : Prop :=
  (dropped = true → fields ctx'.headers = []) ∧
    (dropped = false → fields ctx'.headers = fields ctx.headers ∧ ctx'.body = ctx.body)

theorem Edits.of_eq {ctx ctx' : ResponseContext} (hfields : fields ctx'.headers = fields ctx.headers)
    (hbody : ctx'.body = ctx.body) : Edits false ctx ctx' := by
  constructor
  · intro h
    cases h
  · intro _
    exact ⟨hfields, hbody⟩

/-- What comes later meets the text from before, unless the length is gone already. -/
theorem Edits.trans {p q : Str → Bool} {a b c : ResponseContext} (hab : Edits (p a.bodyText) a b)
    (hbc : Edits (q b.bodyText) b c) : Edits (p a.bodyText || q a.bodyText) a c := by
  cases hp : p a.bodyText with
  | true =>
    have hb : fields b.headers = [] := hab.1 hp
    constructor
    · intro _
      cases hq : q b.bodyText with
      | true => exact hbc.1 hq
      | false => rw [(hbc.2 hq).1, hb]
    · intro h
      cases h
  | false =>
    obtain ⟨hfields, hbody⟩ := hab.2 hp
    have htext : b.bodyText = a.bodyText := by
      unfold ResponseContext.bodyText
      rw [hbody]
    rw [htext] at hbc
    rw [Bool.false_or]
    refine ⟨hbc.1, fun hq => ?_⟩
    rw [(hbc.2 hq).1, (hbc.2 hq).2, hfields, hbody]
    exact ⟨rfl, rfl⟩

theorem applyResponseAction_edits (ctx : ResponseContext) {action : RewriteAction} (h : assigns action = false) :
    Edits (drops regex ctx.bodyText action) ctx (UnifiedRewrite.applyResponseAction regex ctx action).1 := by
  cases action with
  | setHeader name value =>
    apply Edits.of_eq
    · exact (fields_insert ctx.headers name value).trans (if_neg (by simpa [assigns] using h))
    · rfl
  | appendHeader name value =>
    apply Edits.of_eq
    · exact (fields_insert ctx.headers name _).trans (if_neg (by simpa [assigns] using h))
    · rfl
  | removeHeader name =>
    have hremove := fields_remove ctx.headers name
    constructor
    · intro hdrop
      exact hremove.trans (if_pos hdrop)
    · intro hkeep
      exact ⟨hremove.trans (if_neg (by simpa [drops] using hkeep)), rfl⟩
  | setStatus code => exact Edits.of_eq rfl rfl
  | replaceBody pattern replacement =>
    cases hregex : regex pattern with
    | none =>
      simp only [drops, UnifiedRewrite.applyResponseAction, hregex, Option.any_none]
      exact Edits.of_eq rfl rfl
    | some r =>
      by_cases hchanged : r.replaceAll ctx.bodyText replacement ≠ ctx.bodyText
      · simp only [drops, UnifiedRewrite.applyResponseAction, hregex, Option.any_some, if_pos hchanged,
          decide_eq_true hchanged]
        constructor
        · intro _
          exact (fields_remove ctx.headers "content-length").trans (if_pos (by decide))
        · intro hkeep
          cases hkeep
      · simp only [drops, UnifiedRewrite.applyResponseAction, hregex, Option.any_some, if_neg hchanged,
          decide_eq_false hchanged]
        exact Edits.of_eq rfl rfl
  | setQueryParam name value => exact Edits.of_eq rfl rfl
  | removeQueryParam name => exact Edits.of_eq rfl rfl
  | setHost value => exact Edits.of_eq rfl rfl
  | setPath pattern replacement => exact Edits.of_eq rfl rfl
  | redirect status location => exact Edits.of_eq rfl rfl
  | block status => exact Edits.of_eq rfl rfl

private theorem pushFlow_edits (ctx : ResponseContext) (event : RequestFlowEvent) :
    Edits false ctx (ctx.pushFlow event) := Edits.of_eq rfl rfl

theorem applyResponseLoop_edits {rule : RewriteRuleSet} {actions : List RewriteAction}
    (h : ∀ action ∈ actions, assigns action = false) (ctx : ResponseContext) (summaries : List Str) :
    Edits (actions.any (drops regex ctx.bodyText)) ctx
      (UnifiedRewrite.applyResponseLoop regex rule actions ctx summaries) := by
  induction actions generalizing ctx summaries with
  | nil =>
    unfold UnifiedRewrite.applyResponseLoop
    split
    · exact Edits.of_eq rfl rfl
    · exact pushFlow_edits ctx _
  | cons action actions ih =>
    have hstep := @applyResponseAction_edits regex ctx action (h action List.mem_cons_self)
    have hrest :=
      ih (fun a ha => h a (List.mem_cons_of_mem _ ha)) (UnifiedRewrite.applyResponseAction regex ctx action).1
      (summaries ++ (UnifiedRewrite.applyResponseAction regex ctx action).2.toList)
    exact @Edits.trans (fun text => drops regex text action) (fun text => actions.any (drops regex text)) _ _ _ hstep
      hrest

/-- Whether one of the rule sets drops the length of a response with the given text. -/
def dropped (regex : RegexEngine) (rules : List RewriteRuleSet) (text : Str) : Bool :=
  rules.any fun rule => rule.actions.any (drops regex text)

theorem responseLoop_edits {rules : List RewriteRuleSet}
    (h : ∀ rule ∈ rules, ∀ action ∈ rule.actions, assigns action = false) (ctx : ResponseContext) :
    Edits (dropped regex rules ctx.bodyText) ctx (UnifiedRewrite.responseLoop regex rules ctx) := by
  induction rules generalizing ctx with
  | nil => exact Edits.of_eq rfl rfl
  | cons rule rules ih =>
    have hfirst : Edits (rule.actions.any (drops regex ctx.bodyText)) ctx
        (UnifiedRewrite.applyResponseActions regex rule (ctx.pushFlow (.ruleMatched .rewrite rule.id rule.name))) :=
      @applyResponseLoop_edits regex rule rule.actions (h rule List.mem_cons_self)
        (ctx.pushFlow (.ruleMatched .rewrite rule.id rule.name)) []
    exact @Edits.trans (fun text => rule.actions.any (drops regex text)) (dropped regex rules) _ _ _ hfirst
      (ih (fun r hr => h r (List.mem_cons_of_mem _ hr)) _)

/-- The rule sets which apply to a response. -/
def applyingToResponse (regex : RegexEngine) (rules : List RewriteRuleSet) (ctx : ResponseContext) :
    List RewriteRuleSet :=
  rules.filter (UnifiedRewrite.appliesToResponse regex (MatchTarget.fromResponse ctx))

theorem onResponse_edits {rules : List RewriteRuleSet}
    (h : ∀ rule ∈ rules, rule.enabled = true → ∀ action ∈ rule.actions, assigns action = false)
    (ctx : ResponseContext) :
    Edits (dropped regex (applyingToResponse regex rules ctx) ctx.bodyText) ctx
      (UnifiedRewrite.onResponse regex rules ctx).1 := by
  apply responseLoop_edits
  intro rule hrule
  obtain ⟨hmem, happlies⟩ := List.mem_filter.1 hrule
  unfold UnifiedRewrite.appliesToResponse at happlies
  rw [Bool.and_eq_true, Bool.and_eq_true] at happlies
  exact h rule hmem happlies.1.1

end Rewrite

/-! ### Scripts -/

section Scripts

variable {vm : LuaVm}

/-- A script whose result has no other length than the one it was given. -/
def KeepsLength (vm : LuaVm) (code : Str) : Prop :=
  ∀ status body headers result, vm.response code status body headers = some result →
    ∀ e ∈ result.headers.getD [], isName e.1 = true → headers.get? e.1 = some e.2

private theorem runResponseScripts_length {scripts : List LuaScript} (h : ∀ s ∈ scripts, KeepsLength vm s.code)
    (status : Nat) (body : Str) (headers : IndexMap Str Str) {e : Str × Str}
    (he : e ∈ (LuaEngine.runResponseScripts vm scripts status body headers).headers.entries)
    (hname : isName e.1 = true) : e ∈ headers.entries := by
  induction scripts generalizing status body headers with
  | nil => exact he
  | cons script scripts ih =>
    have hscripts : ∀ s ∈ scripts, KeepsLength vm s.code := fun s hs => h s (List.mem_cons_of_mem _ hs)
    unfold LuaEngine.runResponseScripts at he
    cases hresult : vm.response script.code status body headers with
    | none =>
      rw [hresult] at he
      exact ih hscripts _ _ _ he
    | some result =>
      rw [hresult] at he
      rcases IndexMap.mem_insertAll (ih hscripts _ _ _ he) with hold | hnew
      · exact hold
      · exact IndexMap.mem_of_get? (h script List.mem_cons_self status body headers result hresult e hnew hname)

private theorem mem_ofMap {m : IndexMap Str Str} {t : Str} (h : t ∈ fields (HeaderMap.ofMap m)) :
    ∃ e ∈ m.entries, isName e.1 = true ∧ e.2 = t := by
  obtain ⟨e, he, heq⟩ := HeaderMap.mem_fromIter (HeaderMap.mem_getAll.1 h)
  obtain ⟨hname, hvalue⟩ := Prod.mk.inj heq
  exact ⟨e, he, isName_iff.2 hname.symm, hvalue.symm⟩

/-- Scripts which keep the length leave no length that was not there. -/
theorem onResponse_scripts_length {scripts : List LuaScript}
    (h : ∀ s ∈ scripts, s.enabled = true → KeepsLength vm s.code) (ctx : ResponseContext) :
    fields (LuaEngine.onResponse vm scripts ctx).1.headers ⊆ fields ctx.headers := by
  unfold LuaEngine.onResponse
  split
  · exact List.Subset.refl _
  · intro t ht
    obtain ⟨e, he, hname, rfl⟩ := mem_ofMap ht
    have hkeeps : ∀ s ∈ scripts.filter LuaScript.enabled, KeepsLength vm s.code := fun s hs =>
      h s (List.mem_of_mem_filter hs) (List.mem_filter.1 hs).2
    have hmem : e ∈ ctx.headers.entries :=
      HeaderMap.mem_toMap (runResponseScripts_length hkeeps _ _ _ he hname)
    apply HeaderMap.mem_getAll.2
    rw [← isName_iff.1 hname, ctx.headers.lower e hmem]
    exact hmem

theorem onResponse_scripts_proceeds (vm : LuaVm) (scripts : List LuaScript) (ctx : ResponseContext) :
    (LuaEngine.onResponse vm scripts ctx).2 = .proceed := by
  unfold LuaEngine.onResponse
  split <;> rfl

end Scripts

/-! ### Breakpoints -/

/-- An operator who leaves no length that was not there. -/
def OperatorKeepsLength (answer : ResponseContext → BreakpointAnswer) : Prop :=
  ∀ ctx newCtx, answer ctx = .modifyResponse newCtx → fields newCtx.headers ⊆ fields ctx.headers

theorem onResponse_breakpoints_length {regex : RegexEngine} {rules : List BreakpointRule}
    {answer : ResponseContext → BreakpointAnswer} (h : OperatorKeepsLength answer) (ctx : ResponseContext) :
    fields (Breakpoints.onResponse regex rules answer ctx).1.headers ⊆ fields ctx.headers := by
  unfold Breakpoints.onResponse
  split
  · exact List.Subset.refl _
  · cases hanswer : answer ctx with
    | modifyResponse newCtx => exact h ctx newCtx hanswer
    | proceed => exact List.Subset.refl _
    | modifyRequest newCtx => exact List.Subset.refl _
    | drop => exact List.Subset.refl _
    | closed => exact List.Subset.refl _
    | timedOut => exact List.Subset.refl _

/-! ### Answers in place of the upstream -/

section Interceptions

/-- The answer which a context holds, if any, declares its own length only. -/
def AnswerDeclares (ctx : RequestContext) : Prop :=
  ∀ answer, ctx.mockResponse = some answer → Declares answer.body.length answer.headers

private theorem AnswerDeclares.of_eq {ctx ctx' : RequestContext} (h : AnswerDeclares ctx)
    (heq : ctx'.mockResponse = ctx.mockResponse) : AnswerDeclares ctx' := by
  unfold AnswerDeclares
  rw [heq]
  exact h

private theorem AnswerDeclares.of_some {ctx : RequestContext} {answer : InterceptedResponse}
    (hanswer : ctx.mockResponse = some answer) (h : Declares answer.body.length answer.headers) :
    AnswerDeclares ctx := by
  intro answer' hanswer'
  rw [hanswer] at hanswer'
  cases hanswer'
  exact h

variable {regex : RegexEngine}

theorem accessControl_declares {rules : List AccessRule} {ctx : RequestContext} (h : AnswerDeclares ctx) :
    AnswerDeclares (AccessControl.onRequest regex rules ctx).1 := by
  rcases AccessControl.onRequest_cases regex rules ctx with hcase | hcase
  · rw [hcase]
    exact h
  · rw [hcase]
    exact AnswerDeclares.of_some rfl (Declares.of_eq_nil (by decide))

theorem dnsOverride_declares {overrides : DnsOverrides} {ctx : RequestContext} (h : AnswerDeclares ctx) :
    AnswerDeclares (DnsOverride.onRequest overrides ctx).1 := by
  rw [DnsOverride.onRequest_frame]
  exact h

theorem mapRemote_declares {rules : List MapRemoteRule} {ctx : RequestContext} (h : AnswerDeclares ctx) :
    AnswerDeclares (MapRemote.onRequest regex rules ctx).1 := by
  unfold MapRemote.onRequest
  split
  · exact h.of_eq rfl
  · exact h

private theorem applyRequestAction_declares {rule : RewriteRuleSet} {ctx : RequestContext} (h : AnswerDeclares ctx)
    (action : RewriteAction) :
    AnswerDeclares (UnifiedRewrite.applyRequestAction regex rule ctx action).context := by
  cases action with
  | setPath pattern replacement =>
    cases hregex : regex pattern with
    | none =>
      simp only [UnifiedRewrite.applyRequestAction, hregex]
      exact h
    | some r =>
      simp only [UnifiedRewrite.applyRequestAction, hregex]
      exact h.of_eq rfl
  | replaceBody pattern replacement =>
    cases hregex : regex pattern with
    | none =>
      simp only [UnifiedRewrite.applyRequestAction, hregex]
      exact h
    | some r =>
      by_cases hchanged : r.replaceAll ctx.bodyText replacement ≠ ctx.bodyText
      · simp only [UnifiedRewrite.applyRequestAction, hregex, if_pos hchanged]
        exact h.of_eq rfl
      · simp only [UnifiedRewrite.applyRequestAction, hregex, if_neg hchanged]
        exact h
  | redirect status location =>
    refine AnswerDeclares.of_some rfl (Declares.of_eq_nil ?_)
    exact (fields_insert HeaderMap.new "Location" location).trans (if_neg (by decide))
  | block status => exact AnswerDeclares.of_some rfl (Declares.of_eq_nil rfl)
  | setHeader name value => exact h.of_eq rfl
  | appendHeader name value => exact h.of_eq rfl
  | removeHeader name => exact h.of_eq rfl
  | setQueryParam name value => exact h.of_eq rfl
  | removeQueryParam name => exact h.of_eq rfl
  | setHost value => exact h.of_eq rfl
  | setStatus code => exact h

theorem rewrite_declares {rules : List RewriteRuleSet} {ctx : RequestContext} (h : AnswerDeclares ctx) :
    AnswerDeclares (UnifiedRewrite.onRequest regex rules ctx).1 :=
  UnifiedRewrite.onRequest_induction (P := AnswerDeclares) (fun _ _ h => h.of_eq rfl)
    (fun _ _ action h => applyRequestAction_declares h action) rules h

/-- An operator cannot plant an answer: the wire form of a request has none. -/
def OperatorPlantsNoAnswer (answer : RequestContext → BreakpointAnswer) : Prop :=
  ∀ ctx newCtx, answer ctx = .modifyRequest newCtx → newCtx.mockResponse = none

theorem breakpoints_declares {rules : List BreakpointRule} {answer : RequestContext → BreakpointAnswer} {freshId : Str}
    {ctx : RequestContext} (hoperator : OperatorPlantsNoAnswer answer) (h : AnswerDeclares ctx) :
    AnswerDeclares (Breakpoints.onRequest regex rules answer freshId ctx).1 := by
  unfold Breakpoints.onRequest
  split
  · exact h
  · dsimp only
    split
    · exact h.of_eq rfl
    · rename_i newCtx hanswer
      intro planted hplanted
      have hnone : newCtx.mockResponse = some planted := hplanted
      rw [hoperator _ newCtx hanswer] at hnone
      cases hnone
    · exact h.of_eq rfl
    · exact h.of_eq rfl
    · exact h.of_eq rfl
    · exact AnswerDeclares.of_some rfl (Declares.of_eq_nil (by decide))

private theorem declares_fileResponse (path : Str) (contents : Bytes) :
    Declares contents.length (MapLocal.fileResponse path contents).headers := by
  intro t ht
  have hfields : fields (MapLocal.fileResponse path contents).headers = [Str.ofNat contents.length] :=
    (fields_insert _ "Content-Length" _).trans (if_pos (by decide))
  rw [hfields, List.mem_singleton] at ht
  rw [ht]
  exact declared_ofNat _

theorem mapLocal_declares {fs : FileSystem} {dirs : MapLocal.Dirs} {rules : List MapLocalRule} {ctx : RequestContext}
    (h : AnswerDeclares ctx) : AnswerDeclares (MapLocal.onRequest fs regex dirs rules ctx).1 := by
  have hloop : ∀ (target : MatchTarget) (rules : List MapLocalRule) (ctx : RequestContext), AnswerDeclares ctx →
      AnswerDeclares (MapLocal.serveLoop fs regex dirs target rules ctx).1 := by
    intro target rules
    induction rules with
    | nil => exact fun ctx h => h
    | cons rule rules ih =>
      intro ctx h
      unfold MapLocal.serveLoop
      split
      · exact ih ctx h
      · dsimp only
        split
        · exact ih _ (h.of_eq rfl)
        · exact AnswerDeclares.of_some rfl (Declares.of_eq_nil (by rfl))
        · split
          · exact AnswerDeclares.of_some rfl (declares_fileResponse _ _)
          · exact ih _ (h.of_eq rfl)
  exact hloop _ _ ctx h

/-- A mock which writes no length of its own. -/
structure MockAssignsNoLength (rule : MockRule) : Prop where
  responses : ∀ r ∈ rule.responses, ∀ e ∈ r.headers.entries, isName e.1 = false
  http : ∀ responses, rule.behavior = some (.httpResponse responses) →
    ∀ r ∈ responses, ∀ e ∈ r.headers.entries, isName e.1 = false
  grpc : ∀ messages trailers, rule.behavior = some (.grpcScript messages trailers) →
    ∀ e ∈ trailers.entries, isName e.1 = false

private theorem declares_insert_ofNat (headers : HeaderMap) (n : Nat) :
    Declares n (headers.insert "content-length" (Str.ofNat n)) := by
  intro t ht
  rw [fields_insert, if_pos (by decide), List.mem_singleton] at ht
  rw [ht]
  exact declared_ofNat n

private theorem declares_httpResponse {rule : MockRule} {path : Str} {resp : MockResponse}
    (h : ∀ e ∈ resp.headers.entries, isName e.1 = false) :
    Declares (Mock.httpResponse regex rule path resp).body.length (Mock.httpResponse regex rule path resp).headers := by
  have hnone : fields (HeaderMap.ofMap resp.headers) = [] := by
    apply List.eq_nil_iff_forall_not_mem.2
    intro t ht
    obtain ⟨e, he, hname, -⟩ := mem_ofMap ht
    rw [h e he] at hname
    cases hname
  unfold Mock.httpResponse
  dsimp only
  split
  · exact Declares.of_eq_nil hnone
  · exact declares_insert_ofNat _ _

private theorem fields_insertAll {es : List (Str × Str)} (h : ∀ e ∈ es, isName e.1 = false) (headers : HeaderMap) :
    fields (es.foldl (fun h e => h.insert e.1 e.2) headers) = fields headers := by
  induction es generalizing headers with
  | nil => rfl
  | cons e es ih =>
    rw [List.foldl_cons, ih (fun f hf => h f (List.mem_cons_of_mem _ hf)), fields_insert, if_neg]
    rw [h e List.mem_cons_self]
    exact Bool.false_ne_true

private theorem declares_grpcResponse {decodeBase64 : Str → Option Bytes} {rule : MockRule}
    {messages : List GrpcMessageAction} {trailers : HeaderMap} (h : ∀ e ∈ trailers.entries, isName e.1 = false) :
    Declares (Mock.grpcResponse decodeBase64 rule messages trailers).body.length
      (Mock.grpcResponse decodeBase64 rule messages trailers).headers := by
  have htrailers : Declares (Mock.grpcScriptBody decodeBase64 messages).length
      (trailers.entries.foldl (fun h e => h.insert e.1 e.2)
        ((HeaderMap.new.insert "content-type" "application/grpc").insert "content-length"
          (Str.ofNat (Mock.grpcScriptBody decodeBase64 messages).length))) := by
    unfold Declares
    rw [fields_insertAll h]
    exact declares_insert_ofNat _ _
  unfold Mock.grpcResponse
  dsimp only
  split
  · exact htrailers
  · apply htrailers.of_subset
    rw [fields_insert, if_neg (by decide)]
    exact List.Subset.refl _

private theorem currentResponse_length {rule : MockRule} (h : MockAssignsNoLength rule) {resp : MockResponse}
    (hresp : rule.currentResponse = some resp) : ∀ e ∈ resp.headers.entries, isName e.1 = false := by
  have hmem := List.mem_of_getElem? hresp
  cases hbehavior : rule.behavior.bind MockBehavior.httpResponses with
  | none =>
    rw [hbehavior] at hmem
    exact h.responses resp hmem
  | some responses =>
    rw [hbehavior] at hmem
    obtain ⟨behavior, hsome, hhttp⟩ := Option.bind_eq_some_iff.1 hbehavior
    cases behavior with
    | httpResponse responses' =>
      cases hhttp
      exact h.http _ hsome resp hmem
    | webSocketScript frames => cases hhttp
    | grpcScript messages trailers => cases hhttp
    | tunnelDecision allow delayMs => cases hhttp

theorem mock_declares {decodeBase64 : Str → Option Bytes} {rules : List MockRule} {ctx : RequestContext}
    (hrules : ∀ rule ∈ rules, MockAssignsNoLength rule) (h : AnswerDeclares ctx) :
    AnswerDeclares (Mock.onRequest regex decodeBase64 rules ctx).1 := by
  have hloop : ∀ (path : Str) (snapshots : List MockRule) (ctx : RequestContext), (∀ rule ∈ snapshots, rule ∈ rules) →
      AnswerDeclares ctx → AnswerDeclares (Mock.serveLoop regex decodeBase64 path rules snapshots ctx).1.1 := by
    intro path snapshots
    induction snapshots with
    | nil => exact fun ctx _ h => h
    | cons rule snapshots ih =>
      intro ctx hmem h
      have hrest : ∀ r ∈ snapshots, r ∈ rules := fun r hr => hmem r (List.mem_cons_of_mem _ hr)
      have hrule : rule ∈ rules := hmem rule List.mem_cons_self
      have hlive : (Mock.findRule rules rule.id).getD rule ∈ rules := by
        cases hfind : Mock.findRule rules rule.id with
        | none => exact hrule
        | some live => exact List.mem_of_find?_eq_some hfind
      unfold Mock.serveLoop
      split
      · exact ih ctx hrest h
      · dsimp only
        split
        · rename_i messages trailers hbehavior
          split
          · exact ih _ hrest (h.of_eq rfl)
          · exact AnswerDeclares.of_some rfl (declares_grpcResponse ((hrules rule hrule).grpc _ _ hbehavior))
        · split
          · exact ih _ hrest (h.of_eq rfl)
          · rename_i resp hresp
            exact AnswerDeclares.of_some rfl (declares_httpResponse (currentResponse_length (hrules _ hlive) hresp))
  exact hloop _ _ ctx (fun rule hrule => List.mem_of_mem_filter hrule) h

theorem lua_declares {vm : LuaVm} {scripts : List LuaScript} {ctx : RequestContext} (h : AnswerDeclares ctx) :
    AnswerDeclares (LuaEngine.onRequest vm scripts ctx).1 := by
  unfold LuaEngine.onRequest
  dsimp only
  split
  · exact h
  · split
    · exact AnswerDeclares.of_some rfl (Declares.of_eq_nil (by rfl))
    · exact h.of_eq rfl

end Interceptions

end ContentLength

end Oproxy
