import Oproxy.Middleware.Context

/-!
# The middleware chain (`middleware/chain.rs`)

Requests go through the chain in order, responses in the reverse order; the first middleware which does not let the
chain continue ends it.
-/

namespace Oproxy

inductive MiddlewareAction where
  | proceed | stopAndReturn
  deriving DecidableEq

/-- A middleware as the chain sees it.  One without an `onRequest` or an `onResponse` of its own lets everything
pass. -/
structure Middleware where
  onRequest : RequestContext → RequestContext × MiddlewareAction := fun ctx => (ctx, .proceed)
  onResponse : ResponseContext → ResponseContext × MiddlewareAction := fun ctx => (ctx, .proceed)

namespace MiddlewareChain

/-- One pass over the chain. -/
def execute {σ : Type} : List (σ → σ × MiddlewareAction) → σ → σ × MiddlewareAction
  | [], ctx => (ctx, .proceed)
  | step :: steps, ctx =>
    match step ctx with
    | (ctx', .proceed) => execute steps ctx'
    | (ctx', .stopAndReturn) => (ctx', .stopAndReturn)

def executeRequest (middlewares : List Middleware) (ctx : RequestContext) : RequestContext × MiddlewareAction :=
  execute (middlewares.map Middleware.onRequest) ctx

def executeResponse (middlewares : List Middleware) (ctx : ResponseContext) : ResponseContext × MiddlewareAction :=
  execute (middlewares.reverse.map Middleware.onResponse) ctx

/-- A property which every step keeps is kept by the pass. -/
theorem execute_induction {σ : Type} {P : σ → Prop} {steps : List (σ → σ × MiddlewareAction)}
    (h : ∀ step ∈ steps, ∀ ctx, P ctx → P (step ctx).1) {ctx : σ} (h0 : P ctx) : P (execute steps ctx).1 := by
  induction steps generalizing ctx with
  | nil => exact h0
  | cons step steps ih =>
    have hstep := h step List.mem_cons_self ctx h0
    unfold execute
    split
    · rename_i ctx' heq
      rw [heq] at hstep
      exact ih (fun s hs => h s (List.mem_cons_of_mem _ hs)) hstep
    · rename_i ctx' heq
      rw [heq] at hstep
      exact hstep

/-- A property which the steps keep that let the chain continue is kept by a pass which goes through. -/
theorem execute_proceed_induction {σ : Type} {P : σ → Prop} {steps : List (σ → σ × MiddlewareAction)}
    (h : ∀ step ∈ steps, ∀ ctx ctx', P ctx → step ctx = (ctx', .proceed) → P ctx') {ctx ctx' : σ} (h0 : P ctx)
    (hpass : execute steps ctx = (ctx', .proceed)) : P ctx' := by
  induction steps generalizing ctx with
  | nil =>
    cases hpass
    exact h0
  | cons step steps ih =>
    unfold execute at hpass
    split at hpass
    · rename_i between heq
      exact ih (fun s hs => h s (List.mem_cons_of_mem _ hs)) (h step List.mem_cons_self ctx between h0 heq) hpass
    · cases hpass

end MiddlewareChain

end Oproxy
