import EvoRuntime.Library.Sessions
import EvoRuntime.Server.StepHistory

/-!
# The requests that the server knows

A request is started by a route that is hit. It is ended by Lua or by the server, or its
peer goes away. `requestEvents` says which actions mean this, and nothing else of the
server decides it.

## Main result

In every run the server knows the requests that were started and neither ended nor
aborted by the actions of the run, and no call is made on a response that is not valid.

## Proof strategy

`History.phase` reads the phase of each request off the history. A step adds to the
history what `history_step` says, so that it does to the phases what its events do.
-/
namespace EvoRuntime.Server

open Lua Library

inductive RequestPhase where
  | unknown
  | pending
  | ended
  | aborted
  deriving DecidableEq

inductive RequestEvent where
  | start
  | finish
  | abort

/-- Only a request that is pending can be ended or aborted. -/
def RequestPhase.after : RequestPhase → RequestEvent → RequestPhase
  | unknown, .start => pending
  | pending, .finish => ended
  | pending, .abort => aborted
  | phase, _ => phase

theorem RequestPhase.after_other {phase : RequestPhase} (other : phase ≠ .pending) :
    phase.after .finish = phase ∧ phase.after .abort = phase := by
  cases phase with
  | pending => exact absurd rfl other
  | _ => exact ⟨rfl, rfl⟩

/-- What an action means to the requests. -/
def World.requestEvents (w : World) : Action → List (SessionEvent LuaString RequestEvent)
  | .request requestID _ _ _ => [.one requestID .start]
  | .abort response => ((w.responses response).map (.one · .abort)).toList
  | .writeResponse requestID _ outcome => if outcome.aborted then [.one requestID .abort] else []
  | .endResponse requestID _ => [.one requestID .finish]
  | .tryEndResponse requestID _ (.responded _) => [.one requestID .finish]
  | .tryEndResponse requestID _ (.aborted _) => [.one requestID .abort]
  | .abortAllConnections _ => [.all .finish]
  | .stopListening _ _ => if w.server.usListenSocket.isSome then [.all .finish] else []
  | _ => []

/-- What the actions of a run have made of a request. -/
def requestPhase (start : World) (actions : List Action) (requestID : LuaString) : RequestPhase :=
  ((webServer.eventsAlong World.requestEvents actions start).filterMap
    (SessionEvent.concerning requestID)).foldl RequestPhase.after .unknown

/-! ### Phases in the history -/

def History.phase (h : History) (requestID : LuaString) : RequestPhase :=
  if h.ended.contains requestID then .ended
  else if h.aborted.contains requestID then .aborted
  else if h.started.contains requestID then .pending
  else .unknown

namespace History

variable {h more : History} {requestID : LuaString}

theorem phase_eq (h : History) (requestID : LuaString) :
    h.phase requestID =
      if requestID ∈ h.ended then .ended
      else if requestID ∈ h.aborted then .aborted
      else if requestID ∈ h.started then .pending
      else .unknown := by
  simp only [phase, List.contains_iff_mem]

theorem phase_ended_iff : h.phase requestID = .ended ↔ requestID ∈ h.ended := by
  rw [phase_eq]
  split_ifs <;> simp [*]

theorem phase_pending_iff : h.phase requestID = .pending ↔
    requestID ∈ h.started ∧ requestID ∉ h.ended ∧ requestID ∉ h.aborted := by
  rw [phase_eq]
  split_ifs <;> simp [*]

theorem phase_aborted_iff (once : (h.ended ++ h.aborted).Nodup) :
    h.phase requestID = .aborted ↔ requestID ∈ h.aborted := by
  have apart : requestID ∈ h.aborted → requestID ∉ h.ended := fun aborted ended =>
    (List.nodup_append'.mp once).2.2 ended aborted
  rw [phase_eq]
  split_ifs with ended aborted
  · exact iff_of_false nofun fun aborted => apart aborted ended
  · exact iff_of_true rfl aborted
  · exact iff_of_false nofun aborted
  · exact iff_of_false nofun aborted

theorem phase_unknown (ended : requestID ∉ h.ended) (aborted : requestID ∉ h.aborted)
    (started : requestID ∉ h.started) : h.phase requestID = .unknown := by
  rw [phase_eq, if_neg ended, if_neg aborted, if_neg started]

/-- No request was started, ended or aborted. -/
theorem phase_quiet (started : more.started = []) (ended : more.ended = [])
    (aborted : more.aborted = []) : (h ++ more).phase = h.phase := by
  funext other
  simp only [phase_eq, append_eq, started, ended, aborted, List.append_nil]

theorem phase_start (unknown : h.phase requestID = .unknown) (started : more.started = [requestID])
    (ended : more.ended = []) (aborted : more.aborted = []) :
    (h ++ more).phase = Function.update h.phase requestID .pending := by
  funext other
  by_cases same : other = requestID
  · subst same
    rw [Function.update_self, phase_pending_iff]
    -- a request that is unknown was not ended or aborted before
    rw [phase_eq] at unknown
    split_ifs at unknown with endedBefore abortedBefore
    simp [append_eq, started, ended, aborted, endedBefore, abortedBefore]
  · rw [Function.update_of_ne same]
    simp only [phase_eq, append_eq, started, ended, aborted, List.append_nil, List.mem_append,
      List.mem_singleton, same, or_false]

theorem phase_finish (started : more.started = []) (aborted : more.aborted = []) :
    (h ++ more).phase = fun other => if other ∈ more.ended then .ended else h.phase other := by
  funext other
  simp only [phase_eq, append_eq, started, aborted, List.append_nil, List.mem_append]
  by_cases before : other ∈ h.ended
  · simp [before]
  · by_cases now : other ∈ more.ended
    · simp [now]
    · simp [before, now]

theorem phase_abort (pending : h.phase requestID = .pending) (started : more.started = [])
    (ended : more.ended = []) (aborted : more.aborted = [requestID]) :
    (h ++ more).phase = Function.update h.phase requestID .aborted := by
  obtain ⟨-, unended, -⟩ := phase_pending_iff.mp pending
  funext other
  by_cases same : other = requestID
  · subst same
    simp [phase_eq, append_eq, ended, aborted, unended]
  · rw [Function.update_of_ne same]
    simp only [phase_eq, append_eq, started, ended, aborted, List.append_nil, List.mem_append,
      List.mem_singleton, same, or_false]

end History

/-! ### Steps -/

section

variable {w : World} {requestID : LuaString} {more : History}

theorem phase_known_iff (inv : Inv w) :
    (w.server.httpClientsMap.lookup requestID).isSome ↔ w.history.phase requestID = .pending := by
  rw [AList.lookup_isSome, inv.requests.pending, History.phase_pending_iff]

/-- A request that is ended if it is known. -/
theorem phase_ifKnown_finish (inv : Inv w) (started : more.started = [])
    (ended : more.ended = [requestID]) (aborted : more.aborted = []) :
    (w.history ++ w.ifKnown requestID more).phase =
      [SessionEvent.one requestID RequestEvent.finish].foldl (sessionsAfter RequestPhase.after)
        w.history.phase := by
  rw [List.foldl_cons, List.foldl_nil, sessionsAfter_one, World.ifKnown]
  by_cases known : (w.server.httpClientsMap.lookup requestID).isSome
  · rw [if_pos known, History.phase_finish started aborted, (phase_known_iff inv).mp known, ended]
    funext other
    simp only [List.mem_singleton, Function.update_apply]
    rfl
  · have other := mt (phase_known_iff inv).mpr known
    rw [if_neg known, History.append_empty, (RequestPhase.after_other other).1,
      Function.update_eq_self]

/-- A request that is aborted if it is known. -/
theorem phase_ifKnown_abort (inv : Inv w) (started : more.started = []) (ended : more.ended = [])
    (aborted : more.aborted = [requestID]) :
    (w.history ++ w.ifKnown requestID more).phase =
      [SessionEvent.one requestID RequestEvent.abort].foldl (sessionsAfter RequestPhase.after)
        w.history.phase := by
  rw [List.foldl_cons, List.foldl_nil, sessionsAfter_one, World.ifKnown]
  by_cases known : (w.server.httpClientsMap.lookup requestID).isSome
  · have pending := (phase_known_iff inv).mp known
    rw [if_pos known, History.phase_abort pending started ended aborted, pending]
    rfl
  · have other := mt (phase_known_iff inv).mpr known
    rw [if_neg known, History.append_empty, (RequestPhase.after_other other).2,
      Function.update_eq_self]

/-- A call that neither ends nor aborts a request. -/
theorem phase_ifKnown_quiet (started : more.started = []) (ended : more.ended = [])
    (aborted : more.aborted = []) :
    (w.history ++ w.ifKnown requestID more).phase = w.history.phase := by
  unfold World.ifKnown
  split
  · exact History.phase_quiet started ended aborted
  · rw [History.append_empty]

/-- All requests that are known are ended. -/
theorem phase_unavailable (inv : Inv w) (started : more.started = []) (aborted : more.aborted = [])
    (all : more.ended.Perm w.server.httpClientsMap.keys) :
    (w.history ++ more).phase =
      [SessionEvent.all RequestEvent.finish].foldl (sessionsAfter RequestPhase.after)
        w.history.phase := by
  rw [List.foldl_cons, List.foldl_nil, sessionsAfter_all, History.phase_finish started aborted]
  funext other
  -- the keys of the map are the requests that are pending
  have listed : other ∈ more.ended ↔ w.history.phase other = .pending := by
    rw [all.mem_iff, ← AList.mem_keys, ← AList.lookup_isSome, phase_known_iff inv]
  by_cases pending : w.history.phase other = .pending
  · rw [if_pos (listed.mpr pending), pending]
    rfl
  · rw [if_neg (mt listed.mp pending), (RequestPhase.after_other pending).1]

end

/-- Every step does to the phases of the requests what its events do. -/
theorem requests_simulate :
    webServer.Simulates Inv (fun w => w.history.phase) World.requestEvents
      (sessionsAfter RequestPhase.after) := by
  intro w action w' inv enabled stepped
  dsimp only
  rw [history_step inv enabled stepped]
  cases action with
  | request requestID response request route =>
    -- the ID is fresh, so no request has had it before
    have unknown : w.history.phase requestID = .unknown :=
      History.phase_unknown (fun ended => enabled.2.1 (inv.requests.finished _ (Or.inl ended)))
        (fun aborted => enabled.2.1 (inv.requests.finished _ (Or.inr aborted))) enabled.2.1
    rw [World.gains, World.requestEvents, List.foldl_cons, List.foldl_nil, sessionsAfter_one, unknown]
    exact History.phase_start unknown rfl rfl rfl
  | abort response =>
    obtain ⟨requestID, owner⟩ := Option.isSome_iff_exists.mp enabled
    -- a response that is valid belongs to a request in the map
    obtain ⟨data, found, -⟩ := inv.requests.owned response requestID owner
    have known : (w.server.httpClientsMap.lookup requestID).isSome := by rw [found]; rfl
    have pending := (phase_known_iff inv).mp known
    rw [World.gains, World.requestEvents, owner]
    refine (History.phase_abort pending rfl rfl rfl).trans ?_
    simp only [Option.map_some, Option.toList_some, List.foldl_cons, List.foldl_nil,
      sessionsAfter_one, pending]
    rfl
  | writeResponse requestID data outcome =>
    rw [World.gains, World.requestEvents]
    split
    · exact phase_ifKnown_abort inv rfl rfl rfl
    · exact phase_ifKnown_quiet rfl rfl rfl
  | endResponse requestID data => exact phase_ifKnown_finish inv rfl rfl rfl
  | tryEndResponse requestID data outcome =>
    cases outcome with
    | responded ok => exact phase_ifKnown_finish inv rfl rfl rfl
    | pending ok => exact phase_ifKnown_quiet rfl rfl rfl
    | aborted ok => exact phase_ifKnown_abort inv rfl rfl rfl
  | writeResponseStatus requestID statusCodeAndText => exact phase_ifKnown_quiet rfl rfl rfl
  | writeResponseHeader requestID key value => exact phase_ifKnown_quiet rfl rfl rfl
  | abortAllConnections order => exact phase_unavailable inv rfl rfl enabled
  | webSocketClose websocket message =>
    obtain ⟨clientID, owner⟩ := Option.isSome_iff_exists.mp enabled
    rw [World.gains, owner]
    exact History.phase_quiet rfl rfl rfl
  | stopListening clients requests =>
    rw [World.gains, World.requestEvents]
    -- a server that does not listen has nothing to stop
    split
    · refine phase_unavailable inv rfl rfl ?_
      rw [show History.ended _ = [] ++ requests ++ [] from rfl, List.append_nil]
      exact enabled.2
    · rw [History.append_empty]
      rfl
  | _ => exact History.phase_quiet rfl rfl rfl

/-! ## Main result -/

/-- The map holds the requests that are pending, responses are ended and aborted for the
requests that are, no call is made on an invalid response, no response is ended twice, and
calls for IDs that are not in the map fail without an effect. -/
structure RequestsTracked (start : World) (actions : List Action) (w : World) : Prop where
  pending : ∀ requestID,
    requestID ∈ w.server.httpClientsMap ↔ requestPhase start actions requestID = .pending
  ended : ∀ requestID,
    requestID ∈ w.history.ended ↔ requestPhase start actions requestID = .ended
  aborted : ∀ requestID,
    requestID ∈ w.history.aborted ↔ requestPhase start actions requestID = .aborted
  valid : ∀ response requestID, w.responses response = some requestID →
    requestPhase start actions requestID = .pending
  noFault : ∀ action, Enabled w action → ∃ w', step w action = .ok w'
  endedOnce : (w.history.ended ++ w.history.aborted).Nodup
  unknown : ∀ requestID, requestID ∉ w.server.httpClientsMap →
    (∀ data outcome, w.writeResponse requestID data outcome = .ok (.none, w)) ∧
    (∀ data, w.endResponse requestID data = .ok (.none, w)) ∧
    (∀ data outcome, w.tryEndResponse requestID data outcome = .ok (.none, w)) ∧
    (∀ statusCodeAndText, w.writeResponseStatus requestID statusCodeAndText = .ok (false, w)) ∧
    (∀ key value, w.writeResponseHeader requestID key value = .ok (false, w)) ∧
    ∀ accessor : RequestAccessor, accessor.succeeds w.server requestID = false

/-- Accessors find nothing for an ID that is not in the map. -/
theorem succeeds_unknown {server : WebServer} {requestID : LuaString}
    (unknown : server.httpClientsMap.lookup requestID = none) (accessor : RequestAccessor) :
    accessor.succeeds server requestID = false := by
  have text : ∀ select bufferSize, server.getRequestText requestID select bufferSize = none := by
    intro select bufferSize
    rw [WebServer.getRequestText, unknown]
  cases accessor with
  | hasRequest => simp [RequestAccessor.succeeds, WebServer.hasRequest, unknown]
  | getRequestMethod => simp [RequestAccessor.succeeds, WebServer.getRequestMethod, text]
  | getRequestURL => simp [RequestAccessor.succeeds, WebServer.getRequestURL, text]
  | getRequestQuery => simp [RequestAccessor.succeeds, WebServer.getRequestQuery, text]
  | getRequestEndpoint => simp [RequestAccessor.succeeds, WebServer.getRequestEndpoint, text]
  | getRequestHeader => simp [RequestAccessor.succeeds, WebServer.getRequestHeader, text]
  | getSerializedRequestHeaders =>
    simp [RequestAccessor.succeeds, WebServer.getSerializedRequestHeaders, text]

/-- The phase in the history is the one that the actions of the run have led to. -/
theorem phase_of_run {maxPayloadSize : UInt64} {actions : List Action} {w : World}
    (run : webServer.Run { server := { maxPayloadSize } } actions w) (requestID : LuaString) :
    w.history.phase requestID =
      requestPhase { server := { maxPayloadSize } } actions requestID :=
  requests_simulate.session webServer_inductive run (Inv.initial maxPayloadSize) requestID

theorem requests_tracked (maxPayloadSize : UInt64) (actions : List Action) (w : World)
    (run : webServer.Run { server := { maxPayloadSize } } actions w) :
    RequestsTracked { server := { maxPayloadSize } } actions w := by
  have inv : Inv w := webServer_inductive.run run (Inv.initial maxPayloadSize)
  constructor
  case pending =>
    intro requestID
    rw [← phase_of_run run, ← phase_known_iff inv, AList.lookup_isSome]
  case ended =>
    intro requestID
    rw [← phase_of_run run, History.phase_ended_iff]
  case aborted =>
    intro requestID
    rw [← phase_of_run run, History.phase_aborted_iff inv.requests.once]
  case valid =>
    intro response requestID owner
    obtain ⟨data, found, -⟩ := inv.requests.owned response requestID owner
    rw [← phase_of_run run, ← phase_known_iff inv, found]
    rfl
  case noFault =>
    have reached : webServer.Reachable w := ⟨_, actions, ⟨maxPayloadSize, rfl⟩, run⟩
    exact fun action enabled => webServer_inductive.step_ok reached enabled
  case endedOnce => exact inv.requests.once
  case unknown =>
    intro requestID missing
    have unknown := AList.lookup_eq_none.mpr missing
    simp only [World.writeResponse, World.endResponse, World.tryEndResponse,
      World.writeResponseStatus, World.writeResponseHeader, World.writeHead, unknown, implies_true,
      true_and]
    exact succeeds_unknown unknown

def sampleID (digit : UInt8) : LuaString := ascii "47183823-2574-4bfd-b411-99ed177d3e4" ++ [digit]

def routeHit (requestID : LuaString) (response : Address) : Action :=
  .request requestID response ⟨ascii "GET", ascii "/", [], []⟩ (ascii "/*")

/-- Requests that are ended, streamed, aborted by their peers, one of them in the middle of
a write, and turned away; the last one is still pending. -/
def sampleRequests : List Action :=
  [routeHit (sampleID 48) 2, routeHit (sampleID 49) 3,
    .endResponse (sampleID 48) (ascii "Hello"), .abort 3, routeHit (sampleID 50) 2, .tryEndResponse (sampleID 50) (ascii "Hello") (.pending false),
    .tryEndResponse (sampleID 50) (ascii "Hello") (.responded true), routeHit (sampleID 51) 3,
    .writeResponse (sampleID 51) (ascii "Hello") ⟨true, true⟩, .endResponse (sampleID 51) (ascii "Hello"),
    routeHit (sampleID 52) 4, .abortAllConnections [sampleID 52], routeHit (sampleID 53) 4]

theorem sampleRequests_taken : (webServer.tryRun sampleRequests {}).isSome := by decide +kernel

theorem requests_tracked_sample :
    ∃ w, w.server.httpClientsMap.keys = [sampleID 53] ∧
      w.history.ended = [sampleID 48, sampleID 50, sampleID 52] ∧
      w.history.aborted = [sampleID 49, sampleID 51] ∧
      RequestsTracked {} sampleRequests w :=
  ⟨(webServer.tryRun sampleRequests {}).get sampleRequests_taken, by decide +kernel,
    by decide +kernel, by decide +kernel, requests_tracked (16 * 1024 * 1024) _ _
      (System.run_of_tryRun (Option.some_get sampleRequests_taken).symm)⟩

end EvoRuntime.Server
