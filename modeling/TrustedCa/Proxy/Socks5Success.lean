import Mathlib.Data.List.Induction
import TrustedCa.Proxy.Socks5Language

/-!
# When the handshake reports success

A client takes the connection for established when the last reply has REP = 0x00. The proxy does
when the state is `kSuccess` or `ConnectionSucceed` returned true. `Answered` is the condition
under which a call keeps the two together, and `success_agreed_iff` says that it is exact: a
handshake whose calls all meet it never reports a success that the client was not told, and the
first call that does not meet it does.

The condition excludes two things that the code lets through. `ConnectionSucceed` sets `kSuccess`
over the `kFail` of a response that was not sent, and both routes to `kSuccess` go on after
`CreateResp` made an error response.
-/

namespace TrustedCa
namespace Proxy
namespace Socks5

variable {cb : Callbacks} {c : Ctl} {r : QRun}

/-- What can happen to a handshake, with the call that reports an established connection. -/
inductive Action where
  | event (e : Event)
  | connectionSucceed

def Run.act (cb : Callbacks) (r : QRun) : Action → QRun
  | .event e => r.on cb e
  | .connectionSucceed => ⟨(connectionSucceed cb r.ctl).2, r.buffer⟩

/-- The handshake after the actions, from its start. -/
def runOf (cb : Callbacks) (acts : List Action) : QRun := acts.foldl (Run.act cb) start

/-- The state after the action is `kSuccess`, or the action is a `ConnectionSucceed` that returns
true. -/
def ReportsUp (cb : Callbacks) (r : QRun) (a : Action) : Prop :=
  (r.act cb a).ctl.state = .kSuccess ∨
    (a = .connectionSucceed ∧ (connectionSucceed cb r.ctl).1 = true)

def Call.sent : Call → Option (List Byte × CallbackStatus)
  | .response data ret => some (data, ret)
  | .connect _ _ | .destAddress _ _ | .bind _ _ => none

/-- The last response passed to the response callback, with the result of that call. -/
def Ctl.lastResponse (c : Ctl) : Option (List Byte × CallbackStatus) :=
  (c.calls.filterMap Call.sent).getLast?

/-- The last response had REP = 0x00, and its callback returned OK. -/
def Ctl.Agreed (c : Ctl) : Prop :=
  ∃ data, c.lastResponse = some (data, .kStatusOK) ∧ data[1]? = some 0x00

/-- The destination address callback is set and returns OK. -/
def AddressOk (cb : Callbacks) (c : Ctl) (isBind : Bool) : Prop :=
  ∃ f, cb.destAddress = some f ∧ (f c.calls isBind).1 = .kStatusOK

/-- The response callback returns OK for the reply that `CreateResp` makes. -/
def ReplyOk (cb : Callbacks) (c : Ctl) (isBind : Bool) : Prop :=
  cb.response (createResp cb c isBind).2.calls (createResp cb c isBind).1 = .kStatusOK

instance (isBind : Bool) : Decidable (ReplyOk cb c isBind) := inferInstanceAs (Decidable (_ = _))

/-- What the callbacks have to answer for an action: a `ConnectionSucceed` of a waiting handshake
needs an address and a reply that is sent, and a `Proceed` in `kResponse` needs an address if its
reply is sent. -/
def Answered (cb : Callbacks) (c : Ctl) : Action → Prop
  | .connectionSucceed => c.state = .kWaitConnect ∨ c.state = .kWaitAccept →
      AddressOk cb c (c.state = .kWaitAccept) ∧ ReplyOk cb c (c.state = .kWaitAccept)
  | .event .proceed => c.state = .kResponse → ReplyOk cb c false → AddressOk cb c false
  | .event (.bytes _) => True

/-! ## One reply -/

/-- `CreateResp` and the response callback: the reply that `ConnectionSucceed` and `kResponse`
send. -/
def reply (cb : Callbacks) (c : Ctl) (isBind : Bool) : CallbackStatus × Ctl :=
  callResponse cb (createResp cb c isBind).2 (createResp cb c isBind).1

theorem reply_fst (isBind : Bool) : (reply cb c isBind).1 = .kStatusOK ↔ ReplyOk cb c isBind :=
  .rfl

@[simp] theorem lastResponse_goTo (s : HandshakeState) (n : Nat) :
    (c.goTo s n).lastResponse = c.lastResponse := rfl

theorem lastResponse_callResponse (data : List Byte) :
    (callResponse cb c data).2.lastResponse = some (data, (callResponse cb c data).1) := by
  simp [callResponse, Ctl.log, Ctl.lastResponse, Call.sent]

/-- REP is 0x00 exactly if the address was found. -/
theorem createResp_rep (isBind : Bool) :
    (createResp cb c isBind).1[1]? = some 0x00 ↔ AddressOk cb c isBind := by
  unfold createResp AddressOk
  split
  · rename_i h; simp [errRespTemplate, h]
  · rename_i f h
    dsimp only
    split
    · rename_i hok; simp [h, hok]
    · rename_i hok; simp [errRespTemplate, h, hok]

/-- A reply makes the two sides agree exactly if it has an address and is sent. -/
theorem reply_agreed (isBind : Bool) :
    (reply cb c isBind).2.Agreed ↔ AddressOk cb c isBind ∧ ReplyOk cb c isBind := by
  unfold Ctl.Agreed reply
  rw [lastResponse_callResponse, ← createResp_rep, ← reply_fst]
  constructor
  · rintro ⟨data, hd, hr⟩
    obtain ⟨rfl, hok⟩ := Prod.mk.inj (Option.some.inj hd)
    exact ⟨hr, hok⟩
  · rintro ⟨hr, hok⟩
    exact ⟨_, by rw [show (callResponse cb _ _).1 = .kStatusOK from hok], hr⟩

/-! ## One action -/

theorem connectionSucceed_waiting (h : c.state = .kWaitConnect ∨ c.state = .kWaitAccept) :
    connectionSucceed cb c =
      (true, { (reply cb c (c.state = .kWaitAccept)).2 with state := .kSuccess }) := by
  unfold connectionSucceed reply
  rw [if_pos h]
  dsimp only
  split <;> simp [Ctl.fail]

theorem connectionSucceed_other (h : ¬ (c.state = .kWaitConnect ∨ c.state = .kWaitAccept)) :
    connectionSucceed cb c = (false, c.fail) := by
  unfold connectionSucceed
  rw [if_neg h]

theorem connectionSucceed_wf (cb : Callbacks) (c : Ctl) : (connectionSucceed cb c).2.Wf := by
  by_cases hw : c.state = .kWaitConnect ∨ c.state = .kWaitAccept
  · rw [connectionSucceed_waiting hw]
    trivial
  · rw [connectionSucceed_other hw]
    trivial

theorem onResponse_eq : (onResponse cb c).2 =
    if ReplyOk cb c false then (reply cb c false).2.goTo .kSuccess 1
    else (reply cb c false).2.fail := by
  unfold onResponse
  dsimp only
  rw [← reply]
  by_cases h : ReplyOk cb c false
  · rw [if_pos h, if_pos ((reply_fst false).mpr h)]; rfl
  · rw [if_neg h, if_neg fun hr => h ((reply_fst false).mp hr)]; rfl

/-- The transitions that read from the buffer do not end in `kSuccess`. -/
theorem onGroup_ne_success (g : List Byte) (hr : c.state ≠ .kResponse) (hs : c.state ≠ .kSuccess) :
    (c.onGroup cb g).2.state ≠ .kSuccess := by
  cases h : c.state <;> simp only [Ctl.onGroup, h]
  case kGreetingHeader =>
    unfold onGreetingHeader
    split <;> exact HandshakeState.noConfusion
  case kGreetingMethods =>
    unfold onGreetingMethods
    dsimp only
    repeat' split
    all_goals exact HandshakeState.noConfusion
  case kRequestHeader =>
    unfold onRequestHeader
    dsimp only
    repeat' split
    all_goals exact HandshakeState.noConfusion
  case kRequestAddrV4 | kRequestAddrV6 =>
    unfold onRequestAddr
    dsimp only
    repeat' split
    all_goals exact HandshakeState.noConfusion
  case kRequestBind =>
    unfold onRequestBind
    dsimp only
    repeat' split
    all_goals exact HandshakeState.noConfusion
  case kResponse => exact absurd h hr
  case kSuccess => exact absurd h hs
  case kWaitConnect | kWaitAccept | kFail => exact HandshakeState.noConfusion

/-- `Proceed` reaches `kSuccess` from `kResponse` with a reply that was sent, or it was there. -/
theorem step_success (hw : r.ctl.Wf) (h : (step cb r).2.ctl.state = .kSuccess) :
    (r.ctl.state = .kSuccess ∧ (step cb r).2.ctl = r.ctl) ∨
      (r.ctl.state = .kResponse ∧ ReplyOk cb r.ctl false ∧
        (step cb r).2.ctl.calls = (reply cb r.ctl false).2.calls) := by
  by_cases hn : r.ctl.requiredSize ≤ r.buffer.length
  · rw [step_eq hw hn] at h ⊢
    simp only [decided] at h ⊢
    by_cases hs : r.ctl.state = .kSuccess
    · exact .inl ⟨hs, by simp [Ctl.onGroup, hs]⟩
    · by_cases hr : r.ctl.state = .kResponse
      · rw [show r.ctl.onGroup cb _ = onResponse cb r.ctl by simp [Ctl.onGroup, hr],
          onResponse_eq] at h ⊢
        split at h
        · rename_i hok
          exact .inr ⟨hr, hok, by rw [if_pos hok]; rfl⟩
        · cases h
      · exact absurd h (onGroup_ne_success _ hr hs)
  · rw [step_insufficient (by omega)] at h ⊢
    exact .inl ⟨h, rfl⟩

/-- A `Proceed` in `kResponse` whose reply is sent. -/
theorem step_response (hw : r.ctl.Wf) (hr : r.ctl.state = .kResponse)
    (hok : ReplyOk cb r.ctl false) :
    (step cb r).2.ctl = (reply cb r.ctl false).2.goTo .kSuccess 1 := by
  have h0 : r.ctl.requiredSize = 0 := by simpa [Ctl.Wf, hr] using hw
  rw [step_eq hw (by omega)]
  simp only [decided, Ctl.onGroup, hr, onResponse_eq, if_pos hok]

theorem agreed_congr {d : Ctl} (h : c.calls = d.calls) : c.Agreed ↔ d.Agreed := by
  simp only [Ctl.Agreed, Ctl.lastResponse, h]

theorem act_wf (hw : r.ctl.Wf) (a : Action) : (r.act cb a).ctl.Wf := by
  match a with
  | .event (.bytes _) => exact hw
  | .event .proceed => exact step_wf hw
  | .connectionSucceed =>
    by_cases h : r.ctl.state = .kWaitConnect ∨ r.ctl.state = .kWaitAccept
    · simp only [Run.act, connectionSucceed_waiting h]; trivial
    · simp only [Run.act, connectionSucceed_other h]; trivial

/-- An action whose callbacks answered reports only what the client was told. -/
theorem act_agreed (hw : r.ctl.Wf) (hr : r.ctl.state = .kSuccess → r.ctl.Agreed) {a : Action}
    (ha : Answered cb r.ctl a) (hup : ReportsUp cb r a) : (r.act cb a).ctl.Agreed := by
  match a with
  | .event (.bytes x) =>
    exact hr (hup.resolve_right fun h => Action.noConfusion h.1)
  | .event .proceed =>
    rcases step_success hw (hup.resolve_right fun h => Action.noConfusion h.1) with
      ⟨hs, he⟩ | ⟨hs, hok, he⟩
    · exact (agreed_congr (congrArg Ctl.calls he)).mpr (hr hs)
    · exact (agreed_congr he).mpr ((reply_agreed false).mpr ⟨ha hs hok, hok⟩)
  | .connectionSucceed =>
    by_cases h : r.ctl.state = .kWaitConnect ∨ r.ctl.state = .kWaitAccept
    · simp only [Run.act, connectionSucceed_waiting h]
      exact (reply_agreed _).mpr (ha h)
    · simp [ReportsUp, Run.act, connectionSucceed_other h, Ctl.fail] at hup

/-- An action that a callback did not answer reports a success that the client was not told. -/
theorem act_not_agreed (hw : r.ctl.Wf) {a : Action} (ha : ¬ Answered cb r.ctl a) :
    ReportsUp cb r a ∧ ¬ (r.act cb a).ctl.Agreed := by
  match a with
  | .event (.bytes x) => exact absurd trivial ha
  | .event .proceed =>
    simp only [Answered, Classical.not_imp] at ha
    obtain ⟨hs, hok, hno⟩ := ha
    have he := step_response hw hs hok
    refine ⟨.inl (congrArg Ctl.state he), fun h => hno ?_⟩
    rw [Run.act, Run.on, he] at h
    exact ((reply_agreed false).mp h).1
  | .connectionSucceed =>
    simp only [Answered, Classical.not_imp] at ha
    obtain ⟨hs, hno⟩ := ha
    simp only [ReportsUp, Run.act, connectionSucceed_waiting hs]
    exact ⟨.inl trivial, fun h => hno ((reply_agreed _).mp h)⟩

/-! ## Whole runs -/

theorem runOf_snoc (acts : List Action) (a : Action) :
    runOf cb (acts ++ [a]) = (runOf cb acts).act cb a := by
  simp [runOf, List.foldl_append]

theorem runOf_wf (acts : List Action) : (runOf cb acts).ctl.Wf := by
  induction acts using List.reverseRecOn with
  | nil => exact start_wf
  | append_singleton acts a ih => rw [runOf_snoc]; exact act_wf ih a

/-- In a run whose actions are all answered, a handshake in `kSuccess` told its client so. -/
theorem runOf_agreed {acts : List Action}
    (h : ∀ pre a, pre ++ [a] <+: acts → Answered cb (runOf cb pre).ctl a) :
    (runOf cb acts).ctl.state = .kSuccess → (runOf cb acts).ctl.Agreed := by
  induction acts using List.reverseRecOn with
  | nil => exact fun h => by cases h
  | append_singleton acts a ih =>
    intro hs
    have hi := ih fun pre b hb => h pre b (hb.trans (List.prefix_append acts [a]))
    rw [runOf_snoc] at hs ⊢
    exact act_agreed (runOf_wf acts) hi (h acts a List.prefix_rfl) (.inl hs)

/-- **Success agreement.** The calls of a run report success only with a last response of REP =
0x00 that was sent, exactly if the callbacks answer every call. -/
theorem success_agreed_iff (cb : Callbacks) (acts : List Action) :
    (∀ pre a, pre ++ [a] <+: acts → ReportsUp cb (runOf cb pre) a →
        (runOf cb (pre ++ [a])).ctl.Agreed) ↔
      ∀ pre a, pre ++ [a] <+: acts → Answered cb (runOf cb pre).ctl a := by
  constructor
  · intro h pre a hp
    by_contra ha
    obtain ⟨hup, hno⟩ := act_not_agreed (runOf_wf pre) ha
    exact hno (runOf_snoc pre a ▸ h pre a hp hup)
  · intro h pre a hp hup
    rw [runOf_snoc]
    have hpre : pre <+: acts := (List.prefix_append pre [a]).trans hp
    exact act_agreed (runOf_wf pre)
      (runOf_agreed fun p b hb => h p b (hb.trans hpre)) (h pre a hp) hup

/-- A client that hangs up before the reply: every response after the greeting fails. -/
def hangUp : Callbacks where
  response h _ := if h = [] then .kStatusOK else .kStatusFail
  connect := some fun _ _ => .kStatusInProgress
  destAddress := some fun _ _ => (.kStatusOK, .inet ⟨[0x7f, 0x00, 0x00, 0x01], rfl⟩ ⟨[0x00, 0x50], rfl⟩)
  bind _ port := (.kStatusOK, port)

/-- The whole CONNECT request, its four transitions, and the established connection. -/
def hangUpActions : List Action :=
  [.event (.bytes [0x05, 0x01, 0x00, 0x05, 0x01, 0x00, 0x01, 0x7f, 0x00, 0x00, 0x01, 0x00, 0x50]),
    .event .proceed, .event .proceed, .event .proceed, .event .proceed, .connectionSucceed]

theorem success_not_agreed_hangUp :
    (connectionSucceed hangUp (runOf hangUp hangUpActions.dropLast).ctl).1 = true ∧
      (runOf hangUp hangUpActions).ctl.state = .kSuccess ∧
      ¬ (runOf hangUp hangUpActions).ctl.Agreed := by
  have hl : (runOf hangUp hangUpActions).ctl.lastResponse =
      some ([0x05, 0x00, 0x00, 0x01, 0x7f, 0x00, 0x00, 0x01, 0x00, 0x50], .kStatusFail) := by decide
  refine ⟨by decide, by decide, ?_⟩
  rintro ⟨data, hd, -⟩
  rw [hl] at hd
  cases hd

end Socks5
end Proxy
end TrustedCa
