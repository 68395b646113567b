import TrustedCa.Oidc.Jwks
import Mathlib.Data.List.Dedup

/-!
# Authentication of a call (`JwtInterceptor`)

The interceptor takes a token from the `Authorization` header, has a JWT parser verify it, and hands
the call on with the issuer, the subject and the audiences of the token in its context.

* `parse` is `Jwts.parser()` with the key locator: it returns the verified claims or throws. The
  locator calls `OidcJwksKeyFetcher.getKey`, which may go to the network.
* `next` is `Contexts.interceptCall`, which starts the call of the next handler.
* `Action` is what can be seen of a call: that it is closed, counted or started.
* Only `JwtException` is caught. `interceptCall_failClosed_iff`: a call is either started and counted
  as a success, or closed and counted as a failure, if and only if nothing else is thrown.
-/

namespace TrustedCa
namespace Oidc
namespace JwtInterceptor

open Issuance (Thrown)
open Spec

/-- `com.google.tca.domain.metric.Status`. -/
inductive Status where
  | SUCCESS | FAILURE
  deriving DecidableEq

/-- The audience claim: missing, a text, a collection in which `none` is not a text, or something
else. -/
inductive Audience where
  | null
  | string (s : JString)
  | collection (items : List (Option JString))
  | other

/-- `Claims`, as far as they are read. -/
structure Claims where
  getIssuer : Option JString
  getSubject : Option JString
  getAudience : Audience

/-- The values of `ISSUER_CONTEXT_KEY`, `SUBJECT_CONTEXT_KEY` and `AUDIENCE_CONTEXT_KEY`. -/
structure Context where
  issuer : Option JString
  subject : Option JString
  audiences : List JString
  deriving DecidableEq

/-- What happens to a call. Calls are only closed with the status `UNAUTHENTICATED`. -/
inductive Action where
  | closeUnauthenticated (description : JString)
  | incrementAuthenticationCounter (status : Status)
  | startCall (context : Context)
  deriving DecidableEq

def extractAudiences : Audience → List JString
  | .null => []
  | .string s => [s]
  | .collection items => (items.filterMap id).dedup
  | .other => []

def contextOf (claims : Claims) : Context where
  issuer := claims.getIssuer
  subject := claims.getSubject
  audiences := extractAudiences claims.getAudience

/-- Close a call that is not authenticated. -/
def reject (description : JString) : List Action :=
  [.closeUnauthenticated description, .incrementAuthenticationCounter .FAILURE]

variable (parse : JString → Except Thrown Claims) (next : Context → Except Thrown Unit)

/-- The body of the `try`: what was done, and whether it threw. -/
def authenticate (token : JString) : List Action × Except Thrown Unit :=
  match parse token with
  | .error e => ([], .error e)
  | .ok claims =>
    ([.incrementAuthenticationCounter .SUCCESS, .startCall (contextOf claims)],
      next (contextOf claims))

/-- `interceptCall`. Its value is whether it returns a listener or throws. -/
def interceptCall (authHeader : Option JString) : List Action × Except Thrown Unit :=
  match authHeader with
  | none => (reject (.lit "Missing or invalid Authorization header"), .ok ())
  | some header =>
    if JString.lit "Bearer " <+: header then
      match authenticate parse next (header.drop 7) with
      | (actions, .ok ()) => (actions, .ok ())
      | (actions, .error e) =>
        if e.isA .jwtException then
          (actions ++ reject (.lit "Failed to parse JWT token"), .ok ())
        else (actions, .error e)
    else
      (reject (.lit "Missing or invalid Authorization header"), .ok ())

/-! ## Fail-closed -/

def counted (actions : List Action) : List Status :=
  actions.filterMap fun | .incrementAuthenticationCounter status => some status | _ => none

def started (actions : List Action) : List Context :=
  actions.filterMap fun | .startCall context => some context | _ => none

def closed (actions : List Action) : List JString :=
  actions.filterMap fun | .closeUnauthenticated description => some description | _ => none

/-- A call does not throw. It is started once, with the claims of a verified token, and counted once
as a success, or it is closed once and counted once as a failure. -/
def FailClosed (authHeader : Option JString) (outcome : List Action × Except Thrown Unit) : Prop :=
  outcome.2 = .ok () ∧
    ((∃ token claims, authHeader = some (.lit "Bearer " ++ token) ∧ parse token = .ok claims ∧
        started outcome.1 = [contextOf claims] ∧ counted outcome.1 = [.SUCCESS] ∧
        closed outcome.1 = []) ∨
      (started outcome.1 = [] ∧ counted outcome.1 = [.FAILURE] ∧ (closed outcome.1).length = 1))

/-- The parser returns claims and the next handler starts, or the parser throws a
`JwtException`. -/
def Handled (token : JString) : Prop :=
  (∃ claims, parse token = .ok claims ∧ next (contextOf claims) = .ok ()) ∨
    ∃ e, parse token = .error e ∧ e.isA .jwtException = true

section FailClosed

variable {parse next}

theorem failClosed_reject (authHeader : Option JString) (description : JString) :
    FailClosed parse authHeader (reject description, .ok ()) :=
  ⟨rfl, .inr ⟨rfl, rfl, rfl⟩⟩

/-- A call with a token: the `catch` around the `try`. -/
theorem interceptCall_bearer (token : JString) :
    interceptCall parse next (some (.lit "Bearer " ++ token)) =
      match authenticate parse next token with
      | (actions, .ok ()) => (actions, .ok ())
      | (actions, .error e) =>
        if e.isA .jwtException then
          (actions ++ reject (.lit "Failed to parse JWT token"), .ok ())
        else (actions, .error e) := by
  have hpre : JString.lit "Bearer " <+: JString.lit "Bearer " ++ token := List.prefix_append ..
  simp only [interceptCall, hpre, if_true]
  rfl

/-- The parser throws. -/
theorem failClosed_thrown {token : JString} {e : Thrown} (h : parse token = .error e) :
    FailClosed parse (some (.lit "Bearer " ++ token))
      (interceptCall parse next (some (.lit "Bearer " ++ token))) ↔ e.isA .jwtException = true := by
  rw [interceptCall_bearer]
  simp only [authenticate, h]
  by_cases hjwt : e.isA .jwtException = true
  · rw [if_pos hjwt]
    exact ⟨fun _ => hjwt, fun _ => failClosed_reject _ _⟩
  · rw [if_neg hjwt]
    exact ⟨fun h => absurd h.1 nofun, fun h => absurd h hjwt⟩

/-- The parser returns claims. -/
theorem failClosed_verified {token : JString} {claims : Claims} (h : parse token = .ok claims) :
    FailClosed parse (some (.lit "Bearer " ++ token))
      (interceptCall parse next (some (.lit "Bearer " ++ token))) ↔
        next (contextOf claims) = .ok () := by
  rw [interceptCall_bearer]
  simp only [authenticate, h]
  cases hnext : next (contextOf claims) with
  | ok u => exact ⟨fun _ => rfl, fun _ => ⟨rfl, .inl ⟨token, claims, rfl, h, rfl, rfl, rfl⟩⟩⟩
  | error e =>
    refine ⟨fun hclosed => ?_, nofun⟩
    dsimp only at hclosed
    split at hclosed
    · -- The call has been started before it is closed.
      rcases hclosed.2 with ⟨_, _, -, -, -, hcounted, -⟩ | ⟨hstarted, -⟩
      · cases hcounted
      · cases hstarted
    · cases hclosed.1

theorem failClosed_bearer (token : JString) :
    FailClosed parse (some (.lit "Bearer " ++ token))
      (interceptCall parse next (some (.lit "Bearer " ++ token))) ↔ Handled parse next token := by
  cases hparse : parse token with
  | error e =>
    rw [failClosed_thrown hparse]
    refine ⟨fun hjwt => .inr ⟨e, hparse, hjwt⟩, ?_⟩
    rintro (⟨claims, hok, -⟩ | ⟨e', herr, hjwt⟩)
    · rw [hparse] at hok
      cases hok
    · rw [hparse] at herr
      cases herr
      exact hjwt
  | ok claims =>
    rw [failClosed_verified hparse]
    refine ⟨fun hnext => .inl ⟨claims, hparse, hnext⟩, ?_⟩
    rintro (⟨claims', hok, hnext⟩ | ⟨e, herr, -⟩)
    · rw [hparse] at hok
      cases hok
      exact hnext
    · rw [hparse] at herr
      cases herr

/-- What the key fetcher throws when the keys cannot be fetched goes through the interceptor, and the
call is neither counted nor closed. -/
theorem interceptCall_outage {Key : Type} {lib : Lib Key} {failure e : Thrown} {millis : Int}
    {token : JString} (hio : failure.isA .ioException = true)
    (hfetch : fetchJwks lib (.error failure) millis = .error e) (hparse : parse token = .error e) :
    interceptCall parse next (some (.lit "Bearer " ++ token)) = ([], .error e) := by
  have he : e = ⟨.runtimeException, .lit "Failed to fetch or parse JWKS"⟩ := by
    simp only [fetchJwks, bind, Except.bind, hio, Bool.true_or, if_true, Except.error.injEq] at hfetch
    exact hfetch.symm
  subst he
  rw [interceptCall_bearer]
  simp only [authenticate, hparse]
  rfl

/-- **Fail-closed.** For every header, parser and next handler: a call is handled in one of the two
ways, if and only if a token that it has makes the parser return claims with which the next handler
starts, or makes it throw a `JwtException`. -/
theorem interceptCall_failClosed_iff (authHeader : Option JString) :
    FailClosed parse authHeader (interceptCall parse next authHeader) ↔
      ∀ token, authHeader = some (.lit "Bearer " ++ token) → Handled parse next token := by
  cases authHeader with
  | none => exact ⟨fun _ => nofun, fun _ => failClosed_reject _ _⟩
  | some header =>
    by_cases hpre : JString.lit "Bearer " <+: header
    · obtain ⟨token, rfl⟩ := hpre
      rw [failClosed_bearer token]
      refine ⟨fun h token' heq => ?_, fun h => h token rfl⟩
      rw [← List.append_cancel_left (Option.some.inj heq)]
      exact h
    · refine ⟨fun _ token heq => ?_, fun _ => ?_⟩
      · cases heq
        exact absurd (List.prefix_append ..) hpre
      · simp only [interceptCall, hpre, if_false]
        exact failClosed_reject _ _

end FailClosed

/-- A parser without keys, which every token but the empty one makes throw a `JwtException`. -/
def noKeys (token : JString) : Except Thrown Claims :=
  if token = [] then
    .error ⟨.illegalArgumentException, .lit "JWT String cannot be null or empty."⟩
  else
    .error ⟨.jwtException, .lit "Invalid compact JWT string"⟩

/-- A token that is none leads to a closed call. -/
theorem interceptCall_malformed :
    FailClosed noKeys (some (.lit "Bearer x"))
      (interceptCall noKeys (fun _ => .ok ()) (some (.lit "Bearer x"))) := by
  refine (interceptCall_failClosed_iff (some (.lit "Bearer x"))).mpr fun token heq => ?_
  have htoken : token = .lit "x" := List.append_cancel_left (Option.some.inj heq).symm
  subst htoken
  exact .inr ⟨_, rfl, by decide⟩

/-- An empty token makes the call throw, uncounted and not closed. -/
theorem interceptCall_empty :
    ¬ FailClosed noKeys (some (.lit "Bearer "))
      (interceptCall noKeys (fun _ => .ok ()) (some (.lit "Bearer "))) := by
  intro h
  have hthrown : (interceptCall noKeys (fun _ => .ok ()) (some (.lit "Bearer "))).2 =
      .error ⟨.illegalArgumentException, .lit "JWT String cannot be null or empty."⟩ := by
    decide
  rw [h.1] at hthrown
  cases hthrown

end JwtInterceptor
end Oidc
end TrustedCa
