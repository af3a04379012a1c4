import TokenPriceAgg.Lib.Dict
import TokenPriceAgg.Lib.Runs
import TokenPriceAgg.Vault.Rpc

/-!
# The RPC client

`AsyncRpcClient` has one endpoint for each chain and asks it for its chain before the first use.  Any number of calls
share a client; a call gives up control while the endpoint answers, `RpcEvent`.

* (checked) a request goes to the endpoint of its chain only, and only after that endpoint has answered with the chain;
* (once) a chain that is verified stays so, and its endpoint is not asked for its chain again;
* (outcomes) what a call that has ended returned or raised, read off all that passed for it: the answer to its request,
  or what `_client` makes of the answer to `eth_chainId`.

`perform_tracks` connects the steps with the methods `call` and `block_number`, where no other call runs beside.
-/

namespace TokenPriceAgg

open PyLib

/-! ### The methods -/

structure RpcClient where
  /-- `_clients`: the endpoint by chain -/
  clients : Dict Int String
  /-- `_verified` -/
  verified : List Int

/-- What an endpoint is asked. -/
inductive RpcRequest
  | chainId
  | call (call : RpcCall)
  | blockNumber
deriving DecidableEq

/-- The methods `call` and `block_number` with their arguments. -/
inductive RpcMethod
  | call (call : RpcCall)
  | blockNumber (chainId : Int)
deriving DecidableEq

def RpcMethod.chainId : RpcMethod → Int
  | .call rpcCall => rpcCall.chainId
  | .blockNumber chainId => chainId

/-- What the method asks the endpoint. -/
def RpcMethod.request (eth : EthUtils) : RpcMethod → Except Exn RpcRequest
  | .call rpcCall => (eth.toChecksumAddress rpcCall.address).map fun address => .call { rpcCall with address }
  | .blockNumber _ => .ok .blockNumber

def rpcNotConfigured (chainId : Int) : Raised :=
  .exception (.invalidRequest "RPC_NOT_CONFIGURED" ("No RPC configured for chain " ++ toString chainId))

def rpcUnavailable (chainId : Int) : Raised :=
  .exception (.invalidRequest "RPC_UNAVAILABLE" ("RPC unavailable for chain " ++ toString chainId))

def rpcChainMismatch (chainId : Int) : Raised :=
  .exception (.invalidRequest "RPC_CHAIN_MISMATCH" ("RPC does not serve chain " ++ toString chainId))

namespace RpcClient

def new (rpcUrls : Dict Int String) : RpcClient := ⟨rpcUrls, []⟩

/-- `_client` after the endpoint has answered to `eth_chainId`.  A cancellation passes through the `except` clause. -/
def verify (rpc : RpcClient) (chainId : Int) (actual : Except Raised Int) : Except Raised RpcClient :=
  match actual with
  | .error (.exception _) => .error (rpcUnavailable chainId)
  | .error .cancelled => .error .cancelled
  | .ok actual =>
    if actual ≠ chainId then .error (rpcChainMismatch chainId)
    else .ok { rpc with verified := rpc.verified.insert chainId }

/-- `_client`; `actual` is the answer of the endpoint, if it is asked. -/
def client (rpc : RpcClient) (chainId : Int) (actual : Except Raised Int) : Except Raised (String × RpcClient) :=
  match rpc.clients.get? chainId with
  | none => .error (rpcNotConfigured chainId)
  | some endpoint =>
    if chainId ∉ rpc.verified then (rpc.verify chainId actual).map fun rpc => (endpoint, rpc)
    else .ok (endpoint, rpc)

/-- `call` and `block_number`, with the client afterwards; `answer` is what the endpoint answers to the request. -/
def perform (eth : EthUtils) (rpc : RpcClient) (method : RpcMethod) (actual : Except Raised Int)
    (answer : String → RpcRequest → Except Raised PyObj) : Except Raised PyObj × RpcClient :=
  match rpc.client method.chainId actual with
  | .error exc => (.error exc, rpc)
  | .ok (endpoint, rpc) =>
    match method.request eth with
    | .error exc => (.error (.exception exc), rpc)
    | .ok request => (answer endpoint request, rpc)

end RpcClient

/-! ### Calls in flight -/

/-- What passes between the client and the endpoints: the call it is for, the chain and the endpoint.  An answer may be
an exception, or the cancellation of the call that waits for it. -/
inductive WireEvent
  | asked (id : Nat) (chainId : Int) (endpoint : String) (request : RpcRequest)
  /-- the answer to `eth_chainId` -/
  | identified (id : Nat) (chainId : Int) (endpoint : String) (actual : Except Raised Int)
  | answered (id : Nat) (chainId : Int) (endpoint : String) (request : RpcRequest) (answer : Except Raised PyObj)

def WireEvent.callId : WireEvent → Nat
  | .asked id .. | .identified id .. | .answered id .. => id

inductive RpcStage
  /-- the endpoint is asked for its chain -/
  | identifying
  | asking (request : RpcRequest)
deriving DecidableEq

structure RpcPending where
  method : RpcMethod
  endpoint : String
  stage : RpcStage

structure RpcEnded where
  id : Nat
  method : RpcMethod
  outcome : Except Raised PyObj

structure RpcState where
  client : RpcClient
  calls : Dict Nat RpcPending
  /-- the newest first -/
  wire : List WireEvent
  ended : List RpcEnded

inductive RpcEvent
  | start (id : Nat) (method : RpcMethod)
  /-- `client.eth.chain_id` returns, raises or is cancelled -/
  | identify (id : Nat) (actual : Except Raised Int)
  /-- the request of the method returns, raises or is cancelled -/
  | answer (id : Nat) (answer : Except Raised PyObj)

def RpcEvent.callId : RpcEvent → Nat
  | .start id _ | .identify id _ | .answer id _ => id

namespace RpcState

def new (rpcUrls : Dict Int String) : RpcState := ⟨.new rpcUrls, .empty, [], []⟩

/-- The call returns or raises. -/
def finish (s : RpcState) (id : Nat) (method : RpcMethod) (outcome : Except Raised PyObj) : RpcState :=
  { s with calls := s.calls.pop id, ended := ⟨id, method, outcome⟩ :: s.ended }

def record (s : RpcState) (event : WireEvent) : RpcState := { s with wire := event :: s.wire }

def wait (s : RpcState) (id : Nat) (pending : RpcPending) : RpcState := { s with calls := s.calls.set id pending }

/-- The endpoint is asked, and the call waits. -/
def ask (s : RpcState) (id : Nat) (method : RpcMethod) (endpoint : String) (stage : RpcStage) (request : RpcRequest) :
    RpcState :=
  (s.record (.asked id method.chainId endpoint request)).wait id ⟨method, endpoint, stage⟩

variable (eth : EthUtils)

/-- What a method does with a verified endpoint. -/
def proceed (s : RpcState) (id : Nat) (method : RpcMethod) (endpoint : String) : RpcState :=
  match method.request eth with
  | .error exc => s.finish id method (.error (.exception exc))
  | .ok request => s.ask id method endpoint (.asking request) request

/-- What `_client` and the method do with the answer to `eth_chainId`. -/
def conclude (s : RpcState) (id : Nat) (method : RpcMethod) (endpoint : String) (actual : Except Raised Int) :
    RpcState :=
  match s.client.verify method.chainId actual with
  | .error exc => s.finish id method (.error exc)
  | .ok client => { s with client }.proceed eth id method endpoint

def step (s : RpcState) : RpcEvent → Option RpcState
  | .start id method =>
    if s.calls.get? id = none ∧ ∀ e ∈ s.ended, e.id ≠ id then
      match s.client.clients.get? method.chainId with
      | none => some (s.finish id method (.error (rpcNotConfigured method.chainId)))
      | some endpoint =>
        if method.chainId ∉ s.client.verified then some (s.ask id method endpoint .identifying .chainId)
        else some (s.proceed eth id method endpoint)
    else none
  | .identify id actual =>
    match s.calls.get? id with
    | some ⟨method, endpoint, .identifying⟩ =>
      some ((s.record (.identified id method.chainId endpoint actual)).conclude eth id method endpoint actual)
    | _ => none
  | .answer id answer =>
    match s.calls.get? id with
    | some ⟨method, endpoint, .asking request⟩ =>
      some ((s.record (.answered id method.chainId endpoint request answer)).finish id method answer)
    | _ => none

end RpcState

/-! ### What has passed on the wire -/

/-- All that passed for a call, the newest first. -/
def story (id : Nat) (wire : List WireEvent) : List WireEvent := wire.filter fun event => event.callId = id

/-- What `_client` raises on an answer to `eth_chainId`. -/
inductive Refusal (chainId : Int) : Except Raised Int → Raised → Prop
  | unavailable (exc : Exn) : Refusal chainId (.error (.exception exc)) (rpcUnavailable chainId)
  | cancelled : Refusal chainId (.error .cancelled) .cancelled
  | mismatch (actual : Int) (ne : actual ≠ chainId) : Refusal chainId (.ok actual) (rpcChainMismatch chainId)

/-- The endpoint named the chain, or it was not asked for it. -/
def Verification (id : Nat) (chainId : Int) (endpoint : String) (checks : List WireEvent) : Prop :=
  checks = [] ∨ checks = [.identified id chainId endpoint (.ok chainId), .asked id chainId endpoint .chainId]

/-- How a call ended, read off all that passed for it. -/
inductive RpcState.EndedAs (eth : EthUtils) (s : RpcState) (e : RpcEnded) : Prop
  | notConfigured (configured : s.client.clients.get? e.method.chainId = none) (passed : story e.id s.wire = [])
      (outcome : e.outcome = .error (rpcNotConfigured e.method.chainId))
  | unidentified (endpoint : String) (actual : Except Raised Int) (exc : Raised)
      (configured : s.client.clients.get? e.method.chainId = some endpoint)
      (passed : story e.id s.wire = [.identified e.id e.method.chainId endpoint actual,
        .asked e.id e.method.chainId endpoint .chainId])
      (refused : Refusal e.method.chainId actual exc) (outcome : e.outcome = .error exc)
  /-- the address of a contract has no checksum -/
  | unsendable (endpoint : String) (exc : Exn)
      (configured : s.client.clients.get? e.method.chainId = some endpoint)
      (passed : Verification e.id e.method.chainId endpoint (story e.id s.wire))
      (request : e.method.request eth = .error exc) (outcome : e.outcome = .error (.exception exc))
  /-- the outcome is what the endpoint answered to the request of the method -/
  | answered (endpoint : String) (request : RpcRequest) (checks : List WireEvent)
      (configured : s.client.clients.get? e.method.chainId = some endpoint)
      (own : e.method.request eth = .ok request) (verification : Verification e.id e.method.chainId endpoint checks)
      (passed : story e.id s.wire = .answered e.id e.method.chainId endpoint request e.outcome ::
        .asked e.id e.method.chainId endpoint request :: checks)

/-- A request goes to the endpoint of its chain, and one that is not `eth_chainId` only after the endpoint has answered
with the chain. -/
structure RpcState.Checked (s : RpcState) : Prop where
  verified : ∀ chainId ∈ s.client.verified, ∃ endpoint id, s.client.clients.get? chainId = some endpoint ∧
    .identified id chainId endpoint (.ok chainId) ∈ s.wire
  asked : ∀ later id chainId endpoint request earlier,
    s.wire = later ++ .asked id chainId endpoint request :: earlier →
      s.client.clients.get? chainId = some endpoint ∧
        (request ≠ .chainId → ∃ id', .identified id' chainId endpoint (.ok chainId) ∈ earlier)

/-- How often the endpoint of a chain was asked for its chain. -/
def probes (chainId : Int) (wire : List WireEvent) : Nat :=
  wire.countP fun
    | .asked _ chain _ request => chain = chainId ∧ request = .chainId
    | _ => false

/-- A chain that is verified stays so, and its endpoint is not asked for its chain again. -/
def RpcState.VerifiedOnce (s s' : RpcState) : Prop :=
  ∀ chainId ∈ s.client.verified, chainId ∈ s'.client.verified ∧ probes chainId s'.wire = probes chainId s.wire

section Story

variable {id k : Nat} {event : WireEvent}

private theorem story_cons_self (h : event.callId = id) (wire : List WireEvent) :
    story id (event :: wire) = event :: story id wire := by
  unfold story
  rw [List.filter_cons_of_pos (by simpa using h)]

/-- What passes for one call is no part of the story of another. -/
private theorem story_cons_of_ne (h : event.callId ≠ k) (wire : List WireEvent) :
    story k (event :: wire) = story k wire := by
  unfold story
  rw [List.filter_cons_of_neg (by simpa using h)]

private theorem verify_error {rpc : RpcClient} {chainId : Int} {actual : Except Raised Int} {exc : Raised}
    (h : rpc.verify chainId actual = .error exc) : Refusal chainId actual exc := by
  unfold RpcClient.verify at h
  split at h
  · cases h
    exact .unavailable _
  · cases h
    exact .cancelled
  · rename_i actual
    split at h
    · rename_i hne
      cases h
      exact .mismatch actual hne
    · cases h

private theorem verify_ok {rpc rpc' : RpcClient} {chainId : Int} {actual : Except Raised Int}
    (h : rpc.verify chainId actual = .ok rpc') :
    actual = .ok chainId ∧ rpc' = { rpc with verified := rpc.verified.insert chainId } := by
  unfold RpcClient.verify at h
  split at h
  · cases h
  · cases h
  · split at h
    · cases h
    · rename_i hsame
      cases h
      exact ⟨congrArg _ (not_not.1 hsame), rfl⟩

end Story

namespace RpcState

section Invariant

variable {eth : EthUtils} {rpcUrls : Dict Int String} {s s' : RpcState} {id : Nat}

/-- What has passed for a call in flight. -/
inductive Waits (eth : EthUtils) (rpcUrls : Dict Int String) (id : Nat) (passed : List WireEvent) : RpcPending → Prop
  | identifying (method : RpcMethod) (endpoint : String) (configured : rpcUrls.get? method.chainId = some endpoint)
      (asked : passed = [.asked id method.chainId endpoint .chainId]) :
      Waits eth rpcUrls id passed ⟨method, endpoint, .identifying⟩
  | asking (method : RpcMethod) (endpoint : String) (request : RpcRequest) (checks : List WireEvent)
      (configured : rpcUrls.get? method.chainId = some endpoint) (own : method.request eth = .ok request)
      (verification : Verification id method.chainId endpoint checks)
      (asked : passed = .asked id method.chainId endpoint request :: checks) :
      Waits eth rpcUrls id passed ⟨method, endpoint, .asking request⟩

/-- What every step keeps of all calls, or of all but the one that takes the step. -/
structure Sound (eth : EthUtils) (rpcUrls : Dict Int String) (moving : Option Nat) (s : RpcState) : Prop where
  clients : s.client.clients = rpcUrls
  checked : s.Checked
  pending : ∀ k p, some k ≠ moving → s.calls.get? k = some p →
    Waits eth rpcUrls k (story k s.wire) p ∧ ∀ e ∈ s.ended, e.id ≠ k
  ended : ∀ e ∈ s.ended, some e.id ≠ moving ∧ s.EndedAs eth e
  idle : ∀ k, some k ≠ moving → s.calls.get? k = none → (∀ e ∈ s.ended, e.id ≠ k) → story k s.wire = []

/-! ### What each part of a step keeps -/

/-- The end of a call is read off its story. -/
private theorem EndedAs.congr {e : RpcEnded} (he : s.EndedAs eth e) (hclients : s'.client.clients = s.client.clients)
    (hstory : story e.id s'.wire = story e.id s.wire) : s'.EndedAs eth e := by
  cases he with
  | notConfigured configured passed outcome =>
    exact .notConfigured (hclients ▸ configured) (hstory.trans passed) outcome
  | unidentified endpoint actual exc configured passed refused outcome =>
    exact .unidentified endpoint actual exc (hclients ▸ configured) (hstory.trans passed) refused outcome
  | unsendable endpoint exc configured passed request outcome =>
    exact .unsendable endpoint exc (hclients ▸ configured) (hstory.symm ▸ passed) request outcome
  | answered endpoint request checks configured own verification passed =>
    exact .answered endpoint request checks (hclients ▸ configured) own verification (hstory.trans passed)

private theorem Sound.moving (h : Sound eth rpcUrls none s) (hended : ∀ e ∈ s.ended, e.id ≠ id) :
    Sound eth rpcUrls (some id) s where
  clients := h.clients
  checked := h.checked
  pending k p _ hp := h.pending k p (Option.some_ne_none k) hp
  ended e he := ⟨fun hid => hended e he (Option.some.inj hid), (h.ended e he).2⟩
  idle k _ hk hended' := h.idle k (Option.some_ne_none k) hk hended'

/-- Something passes for the call that takes the step; a request of it is checked. -/
private theorem Sound.record {event : WireEvent} (h : Sound eth rpcUrls (some id) s) (hid : event.callId = id)
    (hasked : ∀ k chainId endpoint request, event = .asked k chainId endpoint request →
      rpcUrls.get? chainId = some endpoint ∧
        (request ≠ .chainId → ∃ id', .identified id' chainId endpoint (.ok chainId) ∈ s.wire)) :
    Sound eth rpcUrls (some id) (s.record event) := by
  have hstory (k : Nat) (hk : some k ≠ some id) : story k (event :: s.wire) = story k s.wire :=
    story_cons_of_ne (fun he => hk (congrArg some (he.symm.trans hid))) s.wire
  refine ⟨h.clients, ⟨fun chainId hmem => ?_, fun later k chainId endpoint request earlier hwire => ?_⟩,
    fun k p hk hp => ?_, fun e he => ?_, fun k hk hp hended => (hstory k hk).trans (h.idle k hk hp hended)⟩
  · obtain ⟨endpoint, k, hget, hk⟩ := h.checked.verified chainId hmem
    exact ⟨endpoint, k, hget, List.mem_cons_of_mem _ hk⟩
  · obtain ⟨-, heq⟩ | ⟨later', -, hrest⟩ := List.cons_eq_append_iff.1 hwire
    · obtain ⟨hevent, rfl⟩ := List.cons.inj heq
      obtain ⟨hget, hidentified⟩ := hasked k chainId endpoint request hevent.symm
      exact ⟨(congrArg (·.get? chainId) h.clients).trans hget, hidentified⟩
    · exact h.checked.asked later' k chainId endpoint request earlier hrest
  · obtain ⟨hw, he⟩ := h.pending k p hk hp
    exact ⟨(hstory k hk).symm ▸ hw, he⟩
  · obtain ⟨hne, hended⟩ := h.ended e he
    exact ⟨hne, hended.congr rfl (hstory e.id hne)⟩

/-- The call that takes the step waits. -/
theorem Sound.wait {pending : RpcPending} (h : Sound eth rpcUrls (some id) s)
    (hwaits : Waits eth rpcUrls id (story id s.wire) pending) : Sound eth rpcUrls none (s.wait id pending) where
  clients := h.clients
  checked := ⟨h.checked.verified, h.checked.asked⟩
  pending := by
    intro k p _ hp
    have hp : (s.calls.set id pending).get? k = some p := hp
    by_cases hk : k = id
    · subst hk
      rw [Dict.get?_set_self] at hp
      cases hp
      exact ⟨hwaits, fun e he hid => (h.ended e he).1 (congrArg some hid)⟩
    · rw [Dict.get?_set_of_ne _ hk] at hp
      exact h.pending k p (fun hid => hk (Option.some.inj hid)) hp
  ended e he := ⟨Option.some_ne_none e.id, (h.ended e he).2.congr rfl rfl⟩
  idle := by
    intro k _ hk hended
    have hk : (s.calls.set id pending).get? k = none := hk
    have hne : k ≠ id := by
      rintro rfl
      simp at hk
    rw [Dict.get?_set_of_ne _ hne] at hk
    exact h.idle k (fun hid => hne (Option.some.inj hid)) hk hended

/-- The call that takes the step ends. -/
private theorem Sound.finish {method : RpcMethod} {outcome : Except Raised PyObj} (h : Sound eth rpcUrls (some id) s)
    (hended : s.EndedAs eth ⟨id, method, outcome⟩) : Sound eth rpcUrls none (s.finish id method outcome) where
  clients := h.clients
  checked := ⟨h.checked.verified, h.checked.asked⟩
  pending := by
    intro k p _ hp
    have hk : k ≠ id := by
      rintro rfl
      simp [RpcState.finish] at hp
    have hmoving : some k ≠ some id := fun hid => hk (Option.some.inj hid)
    obtain ⟨hw, he⟩ := h.pending k p hmoving (Dict.get?_pop_imp hp)
    exact ⟨hw, List.forall_mem_cons.2 ⟨Ne.symm hk, he⟩⟩
  ended := by
    refine List.forall_mem_cons.2 ⟨⟨Option.some_ne_none id, hended.congr rfl rfl⟩, fun e he => ?_⟩
    exact ⟨Option.some_ne_none e.id, (h.ended e he).2.congr rfl rfl⟩
  idle := by
    intro k _ hk hended'
    obtain ⟨hid, hended'⟩ := List.forall_mem_cons.1 hended'
    have hk' : s.calls.get? k = none := by
      have hpop : (s.calls.pop id).get? k = none := hk
      rwa [Dict.get?_pop, if_neg (Ne.symm hid)] at hpop
    exact h.idle k (fun hmoving => hid (Option.some.inj hmoving).symm) hk' hended'

/-- The endpoint has answered with its chain. -/
theorem Sound.verified {chainId : Int} {endpoint : String} (h : Sound eth rpcUrls (some id) s)
    (hconfigured : rpcUrls.get? chainId = some endpoint)
    (hidentified : .identified id chainId endpoint (.ok chainId) ∈ s.wire) :
    Sound eth rpcUrls (some id)
      { s with client := { s.client with verified := s.client.verified.insert chainId } } where
  clients := h.clients
  checked := by
    refine ⟨fun c hmem => ?_, h.checked.asked⟩
    obtain rfl | hmem := List.mem_insert_iff.1 hmem
    · exact ⟨endpoint, id, (congrArg (·.get? c) h.clients).trans hconfigured, hidentified⟩
    · exact h.checked.verified c hmem
  pending := h.pending
  ended e he := ⟨(h.ended e he).1, (h.ended e he).2.congr rfl rfl⟩
  idle := h.idle

/-- A method goes on with an endpoint that is verified. -/
private theorem Sound.proceed {method : RpcMethod} {endpoint : String} (h : Sound eth rpcUrls (some id) s)
    (hconfigured : rpcUrls.get? method.chainId = some endpoint) (hverified : method.chainId ∈ s.client.verified)
    (hpassed : Verification id method.chainId endpoint (story id s.wire)) :
    Sound eth rpcUrls none (s.proceed eth id method endpoint) := by
  unfold RpcState.proceed
  cases hrequest : method.request eth with
  | error exc => exact h.finish (.unsendable endpoint exc (h.clients ▸ hconfigured) hpassed hrequest rfl)
  | ok request =>
    have hidentified : ∃ id', .identified id' method.chainId endpoint (.ok method.chainId) ∈ s.wire := by
      obtain ⟨endpoint', id', hget, hmem⟩ := h.checked.verified method.chainId hverified
      rw [h.clients, hconfigured] at hget
      cases hget
      exact ⟨id', hmem⟩
    have hasked : Sound eth rpcUrls (some id) (s.record (.asked id method.chainId endpoint request)) := by
      refine h.record rfl fun k chainId endpoint' request' hevent => ?_
      cases hevent
      exact ⟨hconfigured, fun _ => hidentified⟩
    exact hasked.wait (.asking method endpoint request _ hconfigured hrequest hpassed (story_cons_self rfl s.wire))

/-- The endpoint has answered to `eth_chainId`. -/
private theorem Sound.conclude {method : RpcMethod} {endpoint : String} {actual : Except Raised Int}
    (h : Sound eth rpcUrls (some id) s) (hconfigured : rpcUrls.get? method.chainId = some endpoint)
    (hpassed : story id s.wire = [.asked id method.chainId endpoint .chainId]) :
    Sound eth rpcUrls none
      ((s.record (.identified id method.chainId endpoint actual)).conclude eth id method endpoint actual) := by
  have hrecord : Sound eth rpcUrls (some id) (s.record (.identified id method.chainId endpoint actual)) := by
    refine h.record rfl fun _ _ _ _ hevent => ?_
    cases hevent
  have hstory : story id (s.record (.identified id method.chainId endpoint actual)).wire =
      [.identified id method.chainId endpoint actual, .asked id method.chainId endpoint .chainId] := by
    rw [← hpassed]
    exact story_cons_self rfl s.wire
  unfold RpcState.conclude
  cases hverify : (s.record (.identified id method.chainId endpoint actual)).client.verify method.chainId actual with
  | error exc =>
    exact hrecord.finish (.unidentified endpoint actual exc (hrecord.clients ▸ hconfigured) hstory
      (verify_error hverify) rfl)
  | ok client =>
    obtain ⟨rfl, rfl⟩ := verify_ok hverify
    exact (hrecord.verified hconfigured List.mem_cons_self).proceed hconfigured List.mem_insert_self (.inr hstory)

/-! ### One step, and a run -/

private theorem new_sound (eth : EthUtils) (rpcUrls : Dict Int String) : Sound eth rpcUrls none (new rpcUrls) where
  clients := rfl
  checked := by
    refine ⟨fun chainId hmem => ?_, fun later id chainId endpoint request earlier hwire => ?_⟩
    · cases hmem
    · simp [new] at hwire
  pending k p _ hp := by cases hp
  ended e he := by cases he
  idle k _ _ _ := rfl

theorem Sound.step {event : RpcEvent} (h : Sound eth rpcUrls none s) (hstep : s.step eth event = some s') :
    Sound eth rpcUrls none s' := by
  cases event with
  | start id method =>
    simp only [RpcState.step] at hstep
    split at hstep
    · rename_i hnew
      obtain ⟨hcall, hended⟩ := hnew
      have hmoving := h.moving hended
      have hidle := h.idle id (Option.some_ne_none id) hcall hended
      rw [h.clients] at hstep
      cases hget : rpcUrls.get? method.chainId with
      | none =>
        rw [hget] at hstep
        cases hstep
        exact hmoving.finish (.notConfigured (h.clients ▸ hget) hidle rfl)
      | some endpoint =>
        rw [hget] at hstep
        dsimp only at hstep
        split at hstep
        · cases hstep
          have hasked : Sound eth rpcUrls (some id) (s.record (.asked id method.chainId endpoint .chainId)) := by
            refine hmoving.record rfl fun k chainId endpoint' request hevent => ?_
            cases hevent
            exact ⟨hget, fun hne => absurd rfl hne⟩
          refine hasked.wait (.identifying method endpoint hget ?_)
          rw [← hidle]
          exact story_cons_self rfl s.wire
        · rename_i hverified
          cases hstep
          exact hmoving.proceed hget (not_not.1 hverified) (.inl hidle)
    · cases hstep
  | identify id actual =>
    simp only [RpcState.step] at hstep
    split at hstep
    · rename_i method endpoint hcall
      cases hstep
      obtain ⟨hwaits, hended⟩ := h.pending id _ (Option.some_ne_none id) hcall
      cases hwaits with
      | identifying _ _ configured asked => exact (h.moving hended).conclude configured asked
    · cases hstep
  | answer id answer =>
    simp only [RpcState.step] at hstep
    split at hstep
    · rename_i method endpoint request hcall
      cases hstep
      obtain ⟨hwaits, hended⟩ := h.pending id _ (Option.some_ne_none id) hcall
      cases hwaits with
      | asking _ _ _ checks configured own verification asked =>
        have hrecord : Sound eth rpcUrls (some id)
            (s.record (.answered id method.chainId endpoint request answer)) := by
          refine (h.moving hended).record rfl fun _ _ _ _ hevent => ?_
          cases hevent
        refine hrecord.finish (.answered endpoint request checks (hrecord.clients ▸ configured) own verification ?_)
        rw [← asked]
        exact story_cons_self rfl s.wire
    · cases hstep

/-! ### No second question -/

private theorem VerifiedOnce.refl (s : RpcState) : s.VerifiedOnce s := fun _ hmem => ⟨hmem, rfl⟩

private theorem VerifiedOnce.trans {a b c : RpcState} (h : a.VerifiedOnce b) (h' : b.VerifiedOnce c) :
    a.VerifiedOnce c := by
  intro chainId hmem
  obtain ⟨hmem, hprobes⟩ := h chainId hmem
  obtain ⟨hmem, hprobes'⟩ := h' chainId hmem
  exact ⟨hmem, hprobes'.trans hprobes⟩

/-- A request of a method is not `eth_chainId`. -/
private theorem request_ne_chainId {method : RpcMethod} {request : RpcRequest} (h : method.request eth = .ok request) :
    request ≠ .chainId := by
  rintro rfl
  cases method with
  | call rpcCall =>
    obtain ⟨address, -, heq⟩ := Eff.except_map_eq_ok.1 h
    cases heq
  | blockNumber chainId => cases h

/-- Asking a chain that is not verified for its chain, or asking anything else. -/
private theorem verifiedOnce_ask {method : RpcMethod} {endpoint : String} {stage : RpcStage} {request : RpcRequest}
    (h : method.chainId ∈ s.client.verified → request ≠ .chainId) :
    s.VerifiedOnce (s.ask id method endpoint stage request) := by
  intro chainId hmem
  refine ⟨hmem, ?_⟩
  have hnot : ¬ (method.chainId = chainId ∧ request = .chainId) := by
    rintro ⟨rfl, hrequest⟩
    exact h hmem hrequest
  show probes chainId (.asked id method.chainId endpoint request :: s.wire) = _
  unfold probes
  rw [List.countP_cons_of_neg (by simpa using hnot)]

private theorem verifiedOnce_proceed (method : RpcMethod) (endpoint : String) :
    s.VerifiedOnce (s.proceed eth id method endpoint) := by
  unfold RpcState.proceed
  cases hrequest : method.request eth with
  | error exc => exact .refl s
  | ok request => exact verifiedOnce_ask fun _ => request_ne_chainId hrequest

private theorem verifiedOnce_conclude (method : RpcMethod) (endpoint : String) (actual : Except Raised Int) :
    s.VerifiedOnce (s.conclude eth id method endpoint actual) := by
  unfold RpcState.conclude
  cases hverify : s.client.verify method.chainId actual with
  | error exc => exact .refl s
  | ok client =>
    obtain ⟨-, rfl⟩ := verify_ok hverify
    refine VerifiedOnce.trans (b := { s with client := _ }) (fun chainId hmem => ?_)
      (verifiedOnce_proceed method endpoint)
    exact ⟨List.mem_insert_of_mem hmem, rfl⟩

/-- One step forgets no verified chain and asks none of them for its chain. -/
private theorem step_verifiedOnce {event : RpcEvent} (hstep : s.step eth event = some s') : s.VerifiedOnce s' := by
  cases event with
  | start id method =>
    simp only [RpcState.step] at hstep
    split at hstep
    · split at hstep
      · cases hstep
        exact .refl s
      · split at hstep
        · rename_i hverified
          cases hstep
          exact verifiedOnce_ask fun hmem => absurd hmem hverified
        · cases hstep
          exact verifiedOnce_proceed method _
    · cases hstep
  | identify id actual =>
    simp only [RpcState.step] at hstep
    split at hstep
    · rename_i method endpoint _
      cases hstep
      have hrecord : s.VerifiedOnce (s.record (.identified id method.chainId endpoint actual)) :=
        fun chainId hmem => ⟨hmem, rfl⟩
      exact hrecord.trans (verifiedOnce_conclude method endpoint actual)
    · cases hstep
  | answer id answer =>
    simp only [RpcState.step] at hstep
    split at hstep
    · cases hstep
      exact fun chainId hmem => ⟨hmem, rfl⟩
    · cases hstep

/-! ### A call that runs alone -/

/-- The steps of a call lead to this client and this outcome. -/
def EndsWith (eth : EthUtils) (s : RpcState) (id : Nat) (method : RpcMethod) (ended : List RpcEnded)
    (result : Except Raised PyObj × RpcClient) : Prop :=
  ∃ events s', (∀ e ∈ events, e.callId = id) ∧ run (step eth) s events = some s' ∧ s'.client = result.2 ∧
    s'.ended = ⟨id, method, result.1⟩ :: ended

private theorem EndsWith.cons {event : RpcEvent} {method : RpcMethod} {ended : List RpcEnded}
    {result : Except Raised PyObj × RpcClient} (hstep : s.step eth event = some s') (hid : event.callId = id)
    (h : s'.EndsWith eth id method ended result) : s.EndsWith eth id method ended result := by
  obtain ⟨events, s'', hids, hrun, hclient, hended⟩ := h
  exact ⟨event :: events, s'', List.forall_mem_cons.2 ⟨hid, hids⟩, run_cons.2 ⟨s', hstep, hrun⟩, hclient, hended⟩

private theorem finish_endsWith (s : RpcState) (id : Nat) (method : RpcMethod) (outcome : Except Raised PyObj) :
    (s.finish id method outcome).EndsWith eth id method s.ended (outcome, s.client) :=
  ⟨[], _, by simp, rfl, rfl, rfl⟩

variable {method : RpcMethod} {actual : Except Raised Int} {answer : String → RpcRequest → Except Raised PyObj}

/-- What is left of a method once its endpoint is verified. -/
private theorem proceed_endsWith {endpoint : String} (s' : RpcState)
    (hclient : s.client.client method.chainId actual = .ok (endpoint, s'.client)) :
    (s'.proceed eth id method endpoint).EndsWith eth id method s'.ended
      (s.client.perform eth method actual answer) := by
  unfold RpcState.proceed RpcClient.perform
  rw [hclient]
  dsimp only
  cases method.request eth with
  | error exc => exact finish_endsWith s' id method _
  | ok request =>
    let asked : RpcState := s'.ask id method endpoint (.asking request) request
    have hstep : asked.step eth (.answer id (answer endpoint request)) =
        some ((asked.record (.answered id method.chainId endpoint request (answer endpoint request))).finish id method
          (answer endpoint request)) := by
      simp only [asked, RpcState.step, RpcState.ask, RpcState.wait, Dict.get?_set_self]
    exact .cons hstep rfl (finish_endsWith (asked.record _) id method _)

/-- The steps of a call that nothing runs beside lead to the client and the outcome of the method. -/
theorem perform_tracks (s : RpcState) (id : Nat) (hcall : s.calls.get? id = none) (hended : ∀ e ∈ s.ended, e.id ≠ id) :
    s.EndsWith eth id method s.ended (s.client.perform eth method actual answer) := by
  have hnew : s.calls.get? id = none ∧ ∀ e ∈ s.ended, e.id ≠ id := ⟨hcall, hended⟩
  cases hget : s.client.clients.get? method.chainId with
  | none =>
    have hstep : s.step eth (.start id method) =
        some (s.finish id method (.error (rpcNotConfigured method.chainId))) := by
      simp only [RpcState.step, if_pos hnew, hget]
    have hperform : s.client.perform eth method actual answer =
        (.error (rpcNotConfigured method.chainId), s.client) := by
      simp only [RpcClient.perform, RpcClient.client, hget]
    rw [hperform]
    exact .cons hstep rfl (finish_endsWith s id method _)
  | some endpoint =>
    by_cases hverified : method.chainId ∉ s.client.verified
    · have hstep : s.step eth (.start id method) = some (s.ask id method endpoint .identifying .chainId) := by
        simp only [RpcState.step, if_pos hnew, hget, if_pos hverified]
      refine .cons hstep rfl ?_
      let asked : RpcState := (s.ask id method endpoint .identifying .chainId).record
        (.identified id method.chainId endpoint actual)
      have hstep' : (s.ask id method endpoint .identifying .chainId).step eth (.identify id actual) =
          some (asked.conclude eth id method endpoint actual) := by
        simp only [asked, RpcState.step, RpcState.ask, RpcState.wait, Dict.get?_set_self]
      refine .cons hstep' rfl ?_
      have hclient : asked.client = s.client := rfl
      have hasked : asked.ended = s.ended := rfl
      unfold RpcState.conclude
      rw [hclient, ← hasked]
      cases hverify : s.client.verify method.chainId actual with
      | error exc =>
        have hperform : s.client.perform eth method actual answer = (.error exc, asked.client) := by
          simp only [RpcClient.perform, RpcClient.client, hget, if_pos hverified, hverify, Except.map, hclient]
        rw [hperform]
        exact finish_endsWith asked id method _
      | ok client =>
        refine proceed_endsWith { asked with client } ?_
        simp only [RpcClient.client, hget, if_pos hverified, hverify, Except.map]
    · have hstep : s.step eth (.start id method) = some (s.proceed eth id method endpoint) := by
        simp only [RpcState.step, if_pos hnew, hget, if_neg hverified]
      refine .cons hstep rfl (proceed_endsWith s ?_)
      simp only [RpcClient.client, hget, if_neg hverified]

end Invariant

end RpcState

/-- In every run of an RPC client: a request goes to the endpoint of its own chain and, but for `eth_chainId`, only
after that endpoint has named the chain; a call ends with the answer to its request, or with what the answer to
`eth_chainId` made `_client` raise; and a chain once verified is verified for good, at no further question. -/
theorem rpc_client_never_crosses_chains (eth : EthUtils) (rpcUrls : Dict Int String) (events : List RpcEvent) :
    Always (RpcState.step eth)
        (fun s => s.client.clients = rpcUrls ∧ s.Checked ∧ ∀ e ∈ s.ended, s.EndedAs eth e) (.new rpcUrls) events ∧
      Between (RpcState.step eth) RpcState.VerifiedOnce (.new rpcUrls) events := by
  constructor
  · intro pre _ s hrun
    have hsound : RpcState.Sound eth rpcUrls none s :=
      run_invariant (fun _ _ _ hs hstep => hs.step hstep) (RpcState.new_sound eth rpcUrls) hrun
    exact ⟨hsound.clients, hsound.checked, fun e he => (hsound.ended e he).2⟩
  · refine (between_iff_steps RpcState.VerifiedOnce.refl fun _ _ _ => RpcState.VerifiedOnce.trans).2 ?_
    exact along_of_forall (fun _ _ _ hstep => RpcState.step_verifiedOnce hstep) _ _

end TokenPriceAgg
