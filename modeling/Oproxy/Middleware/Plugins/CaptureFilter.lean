import Oproxy.Middleware.Chain

/-!
# The capture filter (`middleware/plugins/capture_filter.rs`)

A list of hosts to record, or of hosts not to record.  The filter never stops a request; it marks the context of one
which is not to be recorded.
-/

namespace Oproxy

inductive FilterMode where
  /-- Record all traffic. -/
  | disabled
  /-- Only record hosts in the list. -/
  | allowlist
  /-- Record everything except listed hosts. -/
  | denylist
  deriving DecidableEq

structure CaptureFilterConfig where
  mode : FilterMode
  hosts : List Str

/-- Whether traffic of a host is left out; `lowercase` is the lower-casing of any text. -/
def CaptureFilterConfig.shouldSkip (lowercase : Str → Str) (config : CaptureFilterConfig) (host : Str) : Bool :=
  let hostLc := lowercase host
  match config.mode with
  | .disabled => false
  | .allowlist => !config.hosts.any fun h => Str.contains (lowercase h) hostLc
  | .denylist => config.hosts.any fun h => Str.contains (lowercase h) hostLc

namespace CaptureFilter

def onRequest (lowercase : Str → Str) (config : CaptureFilterConfig) (ctx : RequestContext) :
    RequestContext × MiddlewareAction :=
  if config.shouldSkip lowercase ctx.host then ({ ctx with skipRecording := true }, .proceed) else (ctx, .proceed)

theorem onRequest_eq (lowercase : Str → Str) (config : CaptureFilterConfig) (ctx : RequestContext) :
    onRequest lowercase config ctx =
      ({ ctx with skipRecording := config.shouldSkip lowercase ctx.host || ctx.skipRecording }, .proceed) := by
  unfold onRequest
  by_cases hskip : config.shouldSkip lowercase ctx.host = true
  · rw [if_pos hskip, hskip, Bool.true_or]
  · rw [if_neg hskip, (Bool.not_eq_true _).mp hskip, Bool.false_or]

/-- Hosts are compared without regard to case, and in part. -/
example : CaptureFilterConfig.shouldSkip Str.toAsciiLowercase ⟨.denylist, ["Internal"]⟩ "api.INTERNAL.test" = true ∧
    CaptureFilterConfig.shouldSkip Str.toAsciiLowercase ⟨.allowlist, ["internal"]⟩ "api.test" = true ∧
    CaptureFilterConfig.shouldSkip Str.toAsciiLowercase ⟨.allowlist, []⟩ "api.test" = true := by decide +kernel

end CaptureFilter

end Oproxy
