import EvoRuntime.Server.Exchanges
import EvoRuntime.Server.StepHistory

/-!
# Requests do not disturb each other

All requests share the maps of the server and its queue of events, and Lua names them by
their IDs.

## Main result

In every run the exchange of each request is what the events that concern this request
make of it, as if it were the only one. Lua gets the replies and the details that belong
to it, and nothing changes how it ended.

## Proof strategy

`World.exchanges` reads the exchanges off the server. `Effect` says that an operation
changes the exchange of one request and leaves the others alone. Each operation of the
server is composed of such effects, so that every step does to the exchanges what its
events do, and `Simulates.session` picks out one of them.
-/
namespace EvoRuntime.Server

open Lua Library

/-! ### The exchanges of a server -/

def LuaEvent.entry (event : LuaEvent) : LuaString × Nat × LuaString :=
  (event.clientID, event.eventTypeID, event.message)

namespace World

def phaseOf (w : World) (requestID : LuaString) : Phase :=
  match w.server.httpClientsMap.lookup requestID with
  | some data => .pending data.requestDetails
  | none =>
    if w.history.ended.contains requestID then .answered
    else if w.history.aborted.contains requestID then .aborted
    else .unknown

/-- The events that Lua has handled, and those that it will handle. -/
def announced (w : World) (handled : List LuaEvent) : List LuaEvent :=
  handled ++ w.server.deferredEventsQueue.map (delivered w.server.maxPayloadSize)

def exchanges (w : World) (handled : List LuaEvent) (requestID : LuaString) : Exchange where
  phase := w.phaseOf requestID
  said := entriesOf w.history.calls requestID
  told := entriesOf ((w.announced handled).map LuaEvent.entry) requestID

end World

/-- What an operation does to the rest of the server. -/
structure Extends (w w' : World) : Prop where
  clients : w'.server.websocketClientsMap = w.server.websocketClientsMap
  limit : w'.server.maxPayloadSize = w.server.maxPayloadSize
  queue : ∃ more, w'.server.deferredEventsQueue = w.server.deferredEventsQueue ++ more ∧
    ∀ event ∈ more, handledEvents.contains (uwsEventName event.type.code)

namespace Extends

/-- Nothing was pushed. -/
theorem silent {w w' : World}
    (clients : w'.server.websocketClientsMap = w.server.websocketClientsMap)
    (limit : w'.server.maxPayloadSize = w.server.maxPayloadSize)
    (queue : w'.server.deferredEventsQueue = w.server.deferredEventsQueue) : Extends w w' :=
  ⟨clients, limit, [], queue.trans (List.append_nil _).symm, List.forall_mem_nil _⟩

theorem refl (w : World) : Extends w w := silent rfl rfl rfl

theorem trans {w w' w'' : World} (first : Extends w w') (second : Extends w' w'') :
    Extends w w'' := by
  obtain ⟨more, queue, known⟩ := first.queue
  obtain ⟨more', queue', known'⟩ := second.queue
  refine ⟨second.clients.trans first.clients, second.limit.trans first.limit, more ++ more', ?_,
    List.forall_mem_append.mpr ⟨known, known'⟩⟩
  rw [queue', queue, List.append_assoc]

theorem push {w w' : World} (event : DeferredEvent)
    (known : handledEvents.contains (uwsEventName event.type.code))
    (clients : w'.server.websocketClientsMap = w.server.websocketClientsMap)
    (limit : w'.server.maxPayloadSize = w.server.maxPayloadSize)
    (queue : w'.server.deferredEventsQueue = w.server.deferredEventsQueue ++ [event]) :
    Extends w w' :=
  ⟨clients, limit, [event], queue, List.forall_mem_singleton.mpr known⟩

end Extends

/-- An operation changes the exchange of one request and leaves the others alone. -/
structure Effect (handled : List LuaEvent) (w w' : World) (requestID : LuaString)
    (change : Exchange → Exchange) : Prop where
  inv : Inv w'
  rest : Extends w w'
  exchanges : w'.exchanges handled =
    Function.update (w.exchanges handled) requestID (change (w.exchanges handled requestID))

namespace Effect

variable {handled : List LuaEvent} {w w' w'' : World} {requestID : LuaString}
  {change change' : Exchange → Exchange}

theorem none (inv : Inv w) (same : change (w.exchanges handled requestID) =
    w.exchanges handled requestID) : Effect handled w w requestID change where
  inv
  rest := Extends.refl w
  exchanges := by rw [same, Function.update_eq_self]

theorem congr (effect : Effect handled w w' requestID change)
    (same : change' (w.exchanges handled requestID) = change (w.exchanges handled requestID)) :
    Effect handled w w' requestID change' :=
  ⟨effect.inv, effect.rest, by rw [same, effect.exchanges]⟩

theorem trans (first : Effect handled w w' requestID change)
    (second : Effect handled w' w'' requestID change') :
    Effect handled w w'' requestID fun x => change' (change x) where
  inv := second.inv
  rest := first.rest.trans second.rest
  exchanges := by
    rw [second.exchanges, first.exchanges, Function.update_idem, Function.update_self]

/-- The parts of an exchange change one by one. -/
theorem of_parts (inv : Inv w') (rest : Extends w w')
    (phase : w'.phaseOf = Function.update w.phaseOf requestID
      (change (w.exchanges handled requestID)).phase)
    (said : entriesOf w'.history.calls = Function.update (entriesOf w.history.calls) requestID
      (change (w.exchanges handled requestID)).said)
    (told : entriesOf ((w'.announced handled).map LuaEvent.entry) =
      Function.update (entriesOf ((w.announced handled).map LuaEvent.entry)) requestID
        (change (w.exchanges handled requestID)).told) :
    Effect handled w w' requestID change where
  inv
  rest
  exchanges := by
    funext other
    unfold World.exchanges at phase said told ⊢
    rw [phase, said, told]
    by_cases same : other = requestID
    · subst same
      simp only [Function.update_self]
    · simp only [Function.update_of_ne same]

/-! ### Events -/

theorem told_emplace (w : World) (handled : List LuaEvent) (type : EventType)
    (copied : IsCopied requestID) (payload : LuaString) :
    entriesOf (((w.emplace type requestID payload).announced handled).map LuaEvent.entry) =
      Function.update (entriesOf ((w.announced handled).map LuaEvent.entry)) requestID
        ((w.exchanges handled requestID).tell w.server.maxPayloadSize type payload).told := by
  have event : (delivered w.server.maxPayloadSize ⟨type, requestID, payload⟩).entry =
      (requestID, type.code, arriving w.server.maxPayloadSize payload) :=
    congrArg (·, type.code, _) (cString_copyCString copied.1 copied.2)
  have pushed : ((w.emplace type requestID payload).announced handled).map LuaEvent.entry =
      (w.announced handled).map LuaEvent.entry ++
        [(type.code, arriving w.server.maxPayloadSize payload)].map (requestID, ·) := by
    simp only [World.announced, World.emplace, List.map_append, List.map_cons, List.map_nil, event,
      List.append_assoc]
  rw [pushed, entriesOf_append_map]
  rfl

/-- Lua is told of something. -/
theorem emplace (inv : Inv w) (handled : List LuaEvent) (type : EventType)
    (other : ¬type.IsClientEvent) (known : handledEvents.contains (uwsEventName type.code)) (copied : IsCopied requestID)
    (payload : LuaString) :
    Effect handled w (w.emplace type requestID payload) requestID
      (·.tell w.server.maxPayloadSize type payload) :=
  of_parts (inv.emplace other copied payload)
    (.push ⟨type, requestID, payload⟩ known rfl rfl rfl)
    (Function.update_eq_self requestID w.phaseOf).symm
    (Function.update_eq_self requestID (entriesOf w.history.calls)).symm
    (told_emplace w handled type copied payload)

/-! ### Responses -/

/-- Calls are made on the response of a request. -/
theorem say (inv : Inv w) (calls : List ResponseCall) :
    Effect handled w { w with history.calls := w.history.calls ++ calls.map (requestID, ·) }
      requestID (·.say calls) :=
  of_parts (inv.log _) (.silent rfl rfl rfl)
    (Function.update_eq_self requestID w.phaseOf).symm (entriesOf_append_map _ requestID calls)
    (Function.update_eq_self requestID _).symm

/-- A request that is erased gets a new phase, and the others keep theirs. -/
theorem phaseOf_erase {phase : Phase}
    (erased : w'.server.httpClientsMap = w.server.httpClientsMap.erase requestID)
    (own : w'.phaseOf requestID = phase)
    (others : ∀ other, other ≠ requestID →
      w'.history.ended.contains other = w.history.ended.contains other ∧
        w'.history.aborted.contains other = w.history.aborted.contains other) :
    w'.phaseOf = Function.update w.phaseOf requestID phase := by
  funext other
  by_cases same : other = requestID
  · subst same
    rw [Function.update_self, own]
  · obtain ⟨sameEnded, sameAborted⟩ := others other same
    rw [Function.update_of_ne same, World.phaseOf, World.phaseOf, erased,
      AList.lookup_erase_ne same, sameEnded, sameAborted]

theorem contains_concat {other : LuaString} (differ : other ≠ requestID) (ids : List LuaString) :
    (ids ++ [requestID]).contains other = ids.contains other := by
  rw [Bool.eq_iff_iff, List.contains_iff_mem, List.contains_iff_mem, List.mem_append,
    List.mem_singleton, or_iff_left differ]

/-- A response was sent. -/
theorem finish (inv : Inv w) {data : HttpMessageData}
    (found : w.server.httpClientsMap.lookup requestID = some data) :
    Effect handled w
      { w.finishResponse requestID data.response with
        server.httpClientsMap := w.server.httpClientsMap.erase requestID }
      requestID Exchange.finish := by
  refine of_parts (inv.finish found) (.silent rfl rfl rfl)
    (phaseOf_erase rfl ?_ fun other differ => ⟨contains_concat differ _, rfl⟩)
    (Function.update_eq_self requestID (entriesOf w.history.calls)).symm
    (Function.update_eq_self requestID _).symm
  have ended : (w.history.ended ++ [requestID]).contains requestID := by simp
  simp only [World.phaseOf, World.finishResponse, AList.lookup_erase, ended, if_true]
  rfl

/-- The peer of a request goes away. -/
theorem leave (inv : Inv w) {response : Address} (owner : w.responses response = some requestID) :
    Effect handled w (w.abortResponse response) requestID (·.leave w.server.maxPayloadSize) := by
  obtain ⟨data, found, -⟩ := inv.requests.owned response requestID owner
  obtain ⟨begun, unended, -⟩ := (inv.requests.pending requestID).mp
    (AList.lookup_isSome.mp (by rw [found]; rfl))
  have inv' := inv.abortResponse response
  have told := told_emplace w handled .httpAbort (inv.requestCopied begun) []
  have known : handledEvents.contains (uwsEventName EventType.httpAbort.code) := by decide
  unfold World.abortResponse at inv' ⊢
  rw [owner] at inv' ⊢
  refine of_parts inv' (.push ⟨.httpAbort, requestID, []⟩ known rfl rfl rfl)
    (phaseOf_erase rfl ?_ fun other differ => ⟨rfl, contains_concat differ _⟩)
    (Function.update_eq_self requestID (entriesOf w.history.calls)).symm told
  have active : w.history.ended.contains requestID = false := by simpa using unended
  have aborted : (w.history.aborted ++ [requestID]).contains requestID := by simp
  simp only [World.phaseOf, World.onConnectionAborted, World.emplace, AList.lookup_erase, active,
    aborted, Bool.false_eq_true, if_false, if_true]
  rfl

/-- A new request. -/
theorem start (inv : Inv w) {response : Address} (uuid : IsUuid requestID)
    (fresh : requestID ∉ w.history.started) (free : w.responses response = .none)
    (request : HttpRequest) (route : LuaString) :
    Effect handled w (w.onRequest requestID response request route) requestID
      (·.after w.server.maxPayloadSize (.routed (request.details route))) := by
  -- a new ID is nowhere to be found
  have missing : w.server.httpClientsMap.lookup requestID = .none :=
    AList.lookup_eq_none.mpr fun known => fresh ((inv.requests.pending requestID).mp known).1
  have unended : w.history.ended.contains requestID = false := by
    simpa using fun ended => fresh (inv.requests.finished requestID (Or.inl ended))
  have unaborted : w.history.aborted.contains requestID = false := by
    simpa using fun aborted => fresh (inv.requests.finished requestID (Or.inr aborted))
  have unknown : (w.exchanges handled requestID).phase = .unknown := by
    simp only [World.exchanges, World.phaseOf, missing, unended, unaborted, Bool.false_eq_true,
      if_false]
  have inv' := inv.onRequest uuid fresh free request route
  have told := told_emplace w handled .httpStart uuid.isCopied []
  have known : handledEvents.contains (uwsEventName EventType.httpStart.code) := by decide
  have stored : w.onRequest requestID response request route =
      { w with
        server.deferredEventsQueue := w.server.deferredEventsQueue ++ [⟨.httpStart, requestID, []⟩]
        server.httpClientsMap :=
          w.server.httpClientsMap.insert requestID ⟨request.details route, response⟩
        responses := Function.update w.responses response (some requestID)
        history.started := w.history.started ++ [requestID]
        history.pushed := w.history.pushed ++ [(EventType.httpStart.code, requestID)] } :=
    if_pos missing
  rw [stored] at inv' ⊢
  have after : (w.exchanges handled requestID).after w.server.maxPayloadSize
      (.routed (request.details route)) =
        { (w.exchanges handled requestID).tell w.server.maxPayloadSize .httpStart [] with
          phase := .pending (request.details route) } := by
    rw [Exchange.after, unknown]
  refine of_parts inv' (.push ⟨.httpStart, requestID, []⟩ known rfl rfl rfl) (funext fun other => ?_)
    ?_ ?_
  · rw [after]
    by_cases same : other = requestID
    · subst same
      simp only [World.phaseOf, AList.lookup_insert, Function.update_self]
    · rw [Function.update_of_ne same]
      simp only [World.phaseOf, AList.lookup_insert_ne same]
  · rw [after]
    exact (Function.update_eq_self requestID (entriesOf w.history.calls)).symm
  · rw [after]
    exact told

end Effect

/-! ### Answers -/

namespace World

variable {w : World} {requestID : LuaString}

theorem phaseOf_pending {data : HttpMessageData}
    (found : w.server.httpClientsMap.lookup requestID = some data) :
    w.phaseOf requestID = .pending data.requestDetails := by
  rw [phaseOf, found]

theorem phaseOf_missing (missing : w.server.httpClientsMap.lookup requestID = none)
    (requestDetails : HttpRequestDetails) : w.phaseOf requestID ≠ .pending requestDetails := by
  rw [phaseOf, missing]
  dsimp only
  split
  · nofun
  · split <;> nofun

end World

theorem Exchange.respond_pending {x : Exchange} {requestDetails : HttpRequestDetails}
    (pending : x.phase = .pending requestDetails) (maxPayloadSize : UInt64) (response : Response) :
    x.respond maxPayloadSize response = x.answer maxPayloadSize response := by
  rw [respond, pending]

theorem Exchange.respond_other {x : Exchange} (other : ∀ details, x.phase ≠ .pending details)
    (maxPayloadSize : UInt64) (response : Response) :
    x.respond maxPayloadSize response = (response.refusal, x) := by
  unfold respond
  split
  next details pending => exact absurd pending (other details)
  next => rfl

/-- A call from Lua replies what the exchange of its request says, and does to it what
Lua asked for. -/
def Answers (h : HttpHost) (requestID : LuaString) (response : Response) : Prop :=
  ∃ world,
    h.respond requestID response =
      .ok (((h.world.exchanges h.handled (cString requestID)).respond
        h.world.server.maxPayloadSize response).1, { h with world }) ∧
    Effect h.handled h.world world (cString requestID)
      fun x => (x.respond h.world.server.maxPayloadSize response).2

/-- Nothing happens if there is no such request. -/
theorem answers_missing {h : HttpHost} (inv : Inv h.world) {requestID : LuaString}
    (missing : h.world.server.httpClientsMap.lookup (cString requestID) = none)
    (response : Response) : Answers h requestID response := by
  have refused := Exchange.respond_other
    (x := h.world.exchanges h.handled (cString requestID)) (World.phaseOf_missing missing)
    h.world.server.maxPayloadSize response
  refine ⟨h.world, ?_, Effect.none inv (congrArg Prod.snd refused)⟩
  rw [refused]
  cases response <;>
    simp only [HttpHost.respond, HttpHost.WriteResponse, HttpHost.SendResponse,
      HttpHost.StreamResponse, HttpHost.WriteStatus, HttpHost.WriteHeader, HttpHost.within,
      World.writeResponse, World.endResponse, World.tryEndResponse, World.writeResponseStatus,
      World.writeResponseHeader, World.writeHead, missing] <;> rfl

theorem answers_pending {h : HttpHost} (inv : Inv h.world) {requestID : LuaString}
    {data : HttpMessageData}
    (found : h.world.server.httpClientsMap.lookup (cString requestID) = some data)
    (response : Response) : Answers h requestID response := by
  have pending : ∀ response,
      (h.world.exchanges h.handled (cString requestID)).respond h.world.server.maxPayloadSize
        response =
      (h.world.exchanges h.handled (cString requestID)).answer h.world.server.maxPayloadSize
        response :=
    Exchange.respond_pending (World.phaseOf_pending found) h.world.server.maxPayloadSize
  have said : ∀ call, Effect h.handled h.world
      { h.world with history.calls := h.world.history.calls ++ [(cString requestID, call)] }
      (cString requestID) (·.say [call]) := fun call => Effect.say inv [call]
  have owner := inv.requests.valid _ data found
  cases response with
  | write message outcome =>
    simp only [Answers, pending, HttpHost.respond, HttpHost.WriteResponse, HttpHost.within,
      World.writeResponse, found, inv.callResponse_ok found, bind, Except.bind, pure, Except.pure]
    -- the peer may go away before `write` returns
    cases gone : outcome.aborted with
    | false =>
      refine ⟨_, ?_, (said (.write message)).congr ?_⟩
      · simp [Exchange.answer]
      · simp [pending, Exchange.answer, gone]
    | true =>
      have written := said (.write message)
      refine ⟨_, ?_, (written.trans (Effect.leave written.inv owner)).congr ?_⟩
      · simp [Exchange.answer]
      · simp [pending, Exchange.answer, gone]
  | send message =>
    simp only [Answers, pending, HttpHost.respond, HttpHost.SendResponse, HttpHost.within,
      World.endResponse, World.endOn, found, inv.callResponse_ok found, bind, Except.bind, pure,
      Except.pure]
    -- the request is erased behind the call
    have sent := said (.finish message)
    refine ⟨_, rfl, (sent.trans (Effect.finish sent.inv found)).congr ?_⟩
    simp [pending, Exchange.answer]
  | stream message outcome =>
    simp only [Answers, pending, HttpHost.respond, HttpHost.StreamResponse, HttpHost.within,
      World.tryEndResponse, World.tryEndOn, found, inv.callResponse_ok found, bind, Except.bind,
      pure, Except.pure]
    have tried := said (.tryEnd message)
    -- it is erased only if everything was sent
    cases outcome with
    | responded ok =>
      refine ⟨_, rfl, (tried.trans (Effect.finish tried.inv found)).congr ?_⟩
      simp [pending, Exchange.answer]
    | pending ok =>
      refine ⟨_, rfl, tried.congr ?_⟩
      simp [pending, Exchange.answer]
    | aborted ok =>
      refine ⟨_, rfl, (tried.trans (Effect.leave tried.inv owner)).congr ?_⟩
      simp [pending, Exchange.answer]
  | status statusCodeAndText =>
    simp only [Answers, pending, HttpHost.respond, HttpHost.WriteStatus, HttpHost.within,
      World.writeResponseStatus, World.writeHead, found, inv.callResponse_ok found, bind,
      Except.bind, pure, Except.pure]
    refine ⟨_, rfl, (said (.writeStatus (cString statusCodeAndText))).congr ?_⟩
    simp [pending, Exchange.answer]
  | header headerName headerValue =>
    simp only [Answers, pending, HttpHost.respond, HttpHost.WriteHeader, HttpHost.within,
      World.writeResponseHeader, World.writeHead, found, inv.callResponse_ok found, bind,
      Except.bind, pure, Except.pure]
    refine ⟨_, rfl, (said (.writeHeader (cString headerName) (cString headerValue))).congr ?_⟩
    simp [pending, Exchange.answer]

theorem answers {h : HttpHost} (inv : Inv h.world) (requestID : LuaString) (response : Response) :
    Answers h requestID response := by
  cases found : h.world.server.httpClientsMap.lookup (cString requestID) with
  | none => exact answers_missing inv found response
  | some data => exact answers_pending inv found response

/-! ### Shutting down -/

namespace Inv

variable {w : World}

/-- Every request that waits is answered, and none of the others. -/
theorem exchanges_abortAll (inv : Inv w) (handled : List LuaEvent) {order : List LuaString}
    (all : order.Perm w.server.httpClientsMap.keys) {reply : Nat × World}
    (ran : w.abortAllConnections order = .ok reply) :
    Extends w reply.2 ∧ reply.2.exchanges handled = fun requestID =>
      (w.exchanges handled requestID).after w.server.maxPayloadSize .shutdown := by
  have distinct := all.nodup_iff.mpr w.server.httpClientsMap.keys_nodup
  have known : ∀ requestID ∈ order, requestID ∈ w.server.httpClientsMap :=
    fun requestID member => AList.mem_keys.mpr (all.mem_iff.mp member)
  obtain ⟨responses, calls, each, -⟩ :=
    abortEach_ok order w distinct fun requestID member => inv.entry_owned (known requestID member)
  have told := congrArg History.calls (World.history_abortEach each known)
  obtain ⟨aborted, ran', rest⟩ := bind_ok ran
  obtain rfl := Except.ok.inj (each.symm.trans ran')
  cases rest
  refine ⟨.silent rfl rfl rfl, funext fun requestID => ?_⟩
  have said : entriesOf calls requestID = entriesOf w.history.calls requestID ++
      entriesOf (order.flatMap fun other => shutdownAnswer.map (other, ·)) requestID := by
    rw [show calls = _ from told]
    exact entriesOf_append _ _ _
  rw [entriesOf_flatMap distinct] at said
  cases found : w.server.httpClientsMap.lookup requestID with
  | some data =>
    -- a request that waits is a key, so that the loop has answered it
    have listed : requestID ∈ order :=
      all.mem_iff.mpr (AList.mem_keys.mp (AList.lookup_isSome.mp (by rw [found]; rfl)))
    have ended : (w.history.ended ++ order).contains requestID := by simp [listed]
    rw [if_pos listed] at said
    simp only [World.exchanges, World.phaseOf, found, said, ended, Exchange.after, Exchange.say,
      Exchange.finish, AList.lookup_empty, if_true, World.announced]
  | none =>
    -- the loop has left the others alone
    have unlisted : requestID ∉ order := fun member =>
      AList.lookup_eq_none.mp found (known requestID member)
    have ended : (w.history.ended ++ order).contains requestID =
        w.history.ended.contains requestID := by simp [unlisted]
    rw [if_neg unlisted, List.append_nil] at said
    have phase := World.phaseOf_missing found
    rw [Exchange.after]
    split
    next details pending => exact absurd pending (phase details)
    next =>
      simp only [World.exchanges, World.phaseOf, found, said, ended, AList.lookup_empty,
        World.announced]

/-- Stopping shuts down every exchange, and Lua is told that the server stopped. -/
theorem exchanges_stopListening (inv : Inv w) (handled : List LuaEvent)
    {clients requests : List LuaString} (noClients : w.server.websocketClientsMap = ∅)
    (allClients : clients.Perm w.server.websocketClientsMap.keys)
    (allRequests : requests.Perm w.server.httpClientsMap.keys)
    (listening : w.server.usListenSocket.isSome) :
    ∃ w', w.stopListening clients requests = .ok w' ∧ Inv w' ∧ Extends w w' ∧
      w'.exchanges handled =
        [SessionEvent.all ExchangeEvent.shutdown,
          .one (ascii "SERVER") (.announced .shutdown (ascii "Going Away"))].foldl
          (sessionsAfter (Exchange.after w.server.maxPayloadSize)) (w.exchanges handled) := by
  obtain ⟨socket, isSet⟩ := Option.isSome_iff_exists.mp listening
  have nobody : clients = [] := by
    rw [noClients] at allClients
    exact List.perm_nil.mp allClients
  have disconnected : w.disconnectAllClients clients = .ok w := by
    rw [nobody]
    simp only [World.disconnectAllClients, World.disconnectEach, bind, Except.bind, pure, Except.pure]
    rw [← noClients]
  obtain ⟨count, aborted, ran, inv', -⟩ := inv.abortAllConnections allRequests
  obtain ⟨rest, exchanges⟩ := inv.exchanges_abortAll handled allRequests ran
  have closed : Inv { aborted with server.usListenSocket := none } :=
    ⟨inv'.requests, inv'.clients, inv'.queue⟩
  have told := Effect.emplace closed handled .shutdown (by decide) (by decide)
    serverCopied (ascii "Going Away")
  have silent : Extends aborted { aborted with server.usListenSocket := none } :=
    .silent rfl rfl rfl
  refine ⟨_, ?_, told.inv, rest.trans (silent.trans told.rest), ?_⟩
  · simp only [World.stopListening, isSet, disconnected, ran, bind, Except.bind, pure, Except.pure]
  · have limit : aborted.server.maxPayloadSize = w.server.maxPayloadSize := rest.limit
    rw [told.exchanges, List.foldl_cons, List.foldl_cons, List.foldl_nil, sessionsAfter_one,
      sessionsAfter_all, show World.exchanges { aborted with server.usListenSocket := none } handled =
        aborted.exchanges handled from rfl, exchanges, ← limit]
    rfl

end Inv

/-! ### Steps -/

namespace HttpHost

def exchanges (h : HttpHost) : LuaString → Exchange := h.world.exchanges h.handled

/-- What a step means to the exchanges. -/
def events (h : HttpHost) : HttpAction → List (SessionEvent LuaString ExchangeEvent)
  | .addRoute _ _ => []
  | .startListening listenSocket port =>
    match listenSocket with
    | none => []
    | some _ => [.one (ascii "SERVER") (.announced .listen (decimal (port.getD 9001)))]
  | .stopListening _ _ =>
    if h.world.server.usListenSocket.isSome then
      [.all .shutdown, .one (ascii "SERVER") (.announced .shutdown (ascii "Going Away"))]
    else []
  | .processDeferredEvent => []
  | .respond requestID response => [.one (cString requestID) (.response response)]
  | .request requestID _ request route => [.one requestID (.routed (request.details route))]
  | .data requestID chunk isLast =>
    [.one requestID (.announced (if isLast then .httpEnd else .httpData) chunk)]
  | .writable requestID => [.one requestID (.announced .httpWritable [])]
  | .abort response =>
    ((h.world.responses response).map fun requestID => .one requestID .left).toList

end HttpHost

/-- There are no WebSocket clients, and Lua can handle every event of the queue. -/
structure Serving (limit : UInt64) (h : HttpHost) : Prop where
  world : Inv h.world
  noClients : h.world.server.websocketClientsMap = ∅
  limited : h.world.server.maxPayloadSize = limit
  size : h.maxPayloadSize = limit.toNat
  buffer : h.preallocatedEventBuffer.payload.isSome
  known : ∀ event ∈ h.world.server.deferredEventsQueue,
    handledEvents.contains (uwsEventName event.type.code)

/-- The routes that uWebSockets was given are those that are registered. -/
structure Registered (h : HttpHost) : Prop where
  given : h.routes = h.registeredRoutes.map fun (method, route) => (method, cString route)
  methods : ∀ entry ∈ h.registeredRoutes, entry.1 ∈ routingMethods
  once : h.registeredRoutes.Nodup

/-- The request was for a route that is registered with its method. -/
def IsRouted (h : HttpHost) (requestDetails : HttpRequestDetails) : Prop :=
  ∃ method route, (method, route) ∈ h.registeredRoutes ∧ requestDetails.endpoint = cString route ∧
    (method = ANY ∨ upper requestDetails.method = method)

/-- What a step does to the exchanges, and to the routes. -/
structure Moves (limit : UInt64) (h h' : HttpHost) (action : HttpAction) : Prop where
  exchanges : h'.exchanges =
    (h.events action).foldl (sessionsAfter (Exchange.after limit)) h.exchanges
  registered : Registered h → Registered h'
  kept : h.registeredRoutes ⊆ h'.registeredRoutes

theorem Moves.of_same {limit : UInt64} {h h' : HttpHost} {action : HttpAction}
    (exchanges : h'.exchanges =
      (h.events action).foldl (sessionsAfter (Exchange.after limit)) h.exchanges)
    (registered : h'.registeredRoutes = h.registeredRoutes) (given : h'.routes = h.routes) :
    Moves limit h h' action where
  exchanges
  registered held :=
    ⟨by rw [given, registered, held.given], by rw [registered]; exact held.methods,
      by rw [registered]; exact held.once⟩
  kept := by rw [registered]; exact List.Subset.refl _

/-- A route that is added is new and has a known method, and nothing else changes. -/
theorem addRoute_ok {h h' : HttpHost} {route : LuaString} {method : Option LuaString}
    (added : h.AddRoute route method = .ok h') :
    method.getD ANY ∈ routingMethods ∧ (method.getD ANY, route) ∉ h.registeredRoutes ∧
      h' = { h with
        registeredRoutes := h.registeredRoutes ++ [(method.getD ANY, route)]
        routes := h.routes ++ [(method.getD ANY, cString route)] } := by
  unfold HttpHost.AddRoute at added
  dsimp only at added
  split at added
  · cases added
  next valid =>
    split at added
    · cases added
    next fresh =>
      exact ⟨List.contains_iff_mem.mp (not_not.mp valid), mt List.contains_iff_mem.mpr fresh,
        (Except.ok.inj added).symm⟩

theorem Registered.add {h : HttpHost} (held : Registered h) {method route : LuaString}
    (valid : method ∈ routingMethods) (fresh : (method, route) ∉ h.registeredRoutes) :
    Registered { h with
      registeredRoutes := h.registeredRoutes ++ [(method, route)]
      routes := h.routes ++ [(method, cString route)] } where
  given := by
    rw [List.map_append, ← held.given]
    rfl
  methods := List.forall_mem_append.mpr ⟨held.methods, List.forall_mem_singleton.mpr valid⟩
  once := by
    rw [List.nodup_append_comm]
    exact List.nodup_cons.mpr ⟨fresh, held.once⟩

namespace Serving

variable {limit : UInt64} {h : HttpHost}

theorem construct (limit : UInt64) : Serving limit (.construct { maxPayloadSize := limit }) where
  world := Inv.initial limit
  noClients := rfl
  limited := rfl
  size := rfl
  buffer := rfl
  known := List.forall_mem_nil _

theorem move (held : Serving limit h) {world : World} (inv : Inv world)
    (rest : Extends h.world world) (timer : Bool) :
    Serving limit { h with world, pollingUpdateTimer := timer } where
  world := inv
  noClients := rest.clients.trans held.noClients
  limited := rest.limit.trans held.limited
  size := held.size
  buffer := held.buffer
  known := by
    obtain ⟨more, queue, known⟩ := rest.queue
    rw [show World.server _ = world.server from rfl, queue]
    exact List.forall_mem_append.mpr ⟨held.known, known⟩

/-- An effect on one exchange is an event of it. -/
theorem moves_one (held : Serving limit h) {world : World} {requestID : LuaString}
    {event : ExchangeEvent}
    (effect : Effect h.handled h.world world requestID (·.after h.world.server.maxPayloadSize event))
    {action : HttpAction} (meant : h.events action = [.one requestID event]) (timer : Bool) :
    Serving limit { h with world, pollingUpdateTimer := timer } ∧
      Moves limit h { h with world, pollingUpdateTimer := timer } action := by
  refine ⟨held.move effect.inv effect.rest timer, .of_same ?_ rfl rfl⟩
  rw [meant, List.foldl_cons, List.foldl_nil, sessionsAfter_one, ← held.limited]
  exact effect.exchanges

/-- A round hands the first event to Lua. -/
theorem processDeferredEvent (held : Serving limit h)
    (waiting : h.world.server.deferredEventsQueue ≠ []) :
    ∃ h', h.processDeferredEvent = .ok h' ∧ Serving limit h' ∧ h'.exchanges = h.exchanges ∧
      h'.registeredRoutes = h.registeredRoutes ∧ h'.routes = h.routes := by
  obtain ⟨event, rest, queue⟩ := List.exists_cons_of_ne_nil waiting
  obtain ⟨cdata, popped, valid, read⟩ := getNextDeferredEvent_cons queue held.buffer
  have inv := held.world
  have fifo := inv.queue
  rw [queue] at fifo
  have known := held.known
  rw [queue] at known
  obtain ⟨first, later⟩ := List.forall_mem_cons.mp known
  obtain ⟨clean, fits⟩ := fifo.copied event List.mem_cons_self
  have key : ((delivered h.world.server.maxPayloadSize event).eventTypeID,
      (delivered h.world.server.maxPayloadSize event).clientID) = event.key :=
    congrArg (event.type.code, ·) (cString_copyCString clean fits)
  unfold HttpHost.processDeferredEvent HttpHost.OnEvent
  simp only [popped, Option.getD_some, read, key]
  refine ⟨_, if_pos first, ⟨⟨inv.requests, inv.clients, fifo.pop⟩, held.noClients, held.limited,
    held.size, valid, later⟩, ?_, rfl, rfl⟩
  -- the event has moved from the queue to the handled ones
  funext requestID
  simp only [HttpHost.exchanges, World.exchanges, World.announced, queue, List.map_cons,
    List.append_assoc, List.singleton_append]
  rfl

theorem stopListening (held : Serving limit h) {clients requests : List LuaString}
    (enabled : h.IsEnabled (.stopListening clients requests)) :
    ∃ world, h.StopListening clients requests =
        .ok { h with world, pollingUpdateTimer := false } ∧
      Serving limit { h with world, pollingUpdateTimer := false } ∧
      Moves limit h { h with world, pollingUpdateTimer := false }
        (.stopListening clients requests) := by
  cases listening : h.world.server.usListenSocket with
  | none =>
    have ran : h.world.stopListening clients requests = .ok h.world := by
      rw [World.stopListening, listening]
    refine ⟨h.world, ?_, held.move held.world (Extends.refl _) false, .of_same ?_ rfl rfl⟩
    · simp only [HttpHost.StopListening, ran, bind, Except.bind, pure, Except.pure]
    · rw [HttpHost.events, listening]
      rfl
  | some socket =>
    obtain ⟨world, ran, inv, rest, exchanges⟩ := held.world.exchanges_stopListening h.handled
      held.noClients enabled.1 enabled.2 (by rw [listening]; rfl)
    refine ⟨world, ?_, held.move inv rest false, .of_same ?_ rfl rfl⟩
    · simp only [HttpHost.StopListening, ran, bind, Except.bind, pure, Except.pure]
    · rw [HttpHost.events, listening, ← held.limited]
      exact exchanges

/-- Every step does to the exchanges what its events do, and none fails. -/
theorem step (held : Serving limit h) (action : HttpAction) (enabled : h.IsEnabled action) :
    ∃ h', h.step action = .ok h' ∧ Serving limit h' ∧ Moves limit h h' action := by
  have inv := held.world
  cases action with
  | addRoute route method =>
    rw [HttpHost.step]
    cases added : h.AddRoute route method with
    | error message => exact ⟨h, rfl, held, .of_same rfl rfl rfl⟩
    | ok h' =>
      obtain ⟨valid, fresh, rfl⟩ := addRoute_ok added
      exact ⟨_, rfl, { held with }, rfl, fun registered => registered.add valid fresh,
        List.subset_append_left _ _⟩
  | startListening listenSocket port =>
    cases listenSocket with
    | none => exact ⟨_, rfl, held.move inv (Extends.refl _) true, .of_same rfl rfl rfl⟩
    | some socket =>
      have listening : Inv { h.world with server.usListenSocket := some socket } :=
        ⟨inv.requests, inv.clients, inv.queue⟩
      have told := Effect.emplace listening h.handled .listen (by decide) (by decide)
        serverCopied (decimal (port.getD 9001))
      refine ⟨_, rfl, held.move told.inv ⟨rfl, rfl, told.rest.queue⟩ true, .of_same ?_ rfl rfl⟩
      change HttpHost.exchanges _ = List.foldl _ _ [SessionEvent.one _ _]
      rw [List.foldl_cons, List.foldl_nil, sessionsAfter_one, ← held.limited]
      exact told.exchanges
  | stopListening clients requests =>
    obtain ⟨world, ran, served, moved⟩ := held.stopListening enabled
    exact ⟨_, by rw [HttpHost.step, ran]; rfl, served, moved⟩
  | processDeferredEvent =>
    obtain ⟨h', ran, served, same, registered, given⟩ := held.processDeferredEvent enabled
    exact ⟨h', by rw [HttpHost.step, ran]; rfl, served, .of_same same registered given⟩
  | respond requestID response =>
    obtain ⟨world, ran, effect⟩ := answers inv requestID response
    exact ⟨_, by rw [HttpHost.step, ran]; rfl, held.moves_one effect rfl h.pollingUpdateTimer⟩
  | request requestID response request route =>
    obtain ⟨⟨uuid, fresh, free⟩, -⟩ := enabled
    exact ⟨_, rfl, held.moves_one (Effect.start inv uuid fresh free request route) rfl
      h.pollingUpdateTimer⟩
  | data requestID chunk isLast =>
    have copied := inv.requestCopied enabled
    cases isLast with
    | true => exact ⟨_, rfl, held.moves_one
        (Effect.emplace inv h.handled .httpEnd (by decide) (by decide) copied chunk) rfl
        h.pollingUpdateTimer⟩
    | false => exact ⟨_, rfl, held.moves_one
        (Effect.emplace inv h.handled .httpData (by decide) (by decide) copied chunk) rfl
        h.pollingUpdateTimer⟩
  | writable requestID =>
    exact ⟨_, rfl, held.moves_one (Effect.emplace inv h.handled .httpWritable (by decide)
      (by decide) (inv.requestCopied enabled) []) rfl h.pollingUpdateTimer⟩
  | abort response =>
    obtain ⟨requestID, owner⟩ := Option.isSome_iff_exists.mp enabled
    obtain ⟨data, found, -⟩ := inv.requests.owned response requestID owner
    -- its response is valid, so it waits
    have left : Effect h.handled h.world (h.world.abortResponse response) requestID
        (·.after h.world.server.maxPayloadSize .left) :=
      (Effect.leave inv owner).congr (by
        rw [Exchange.after, World.exchanges, World.phaseOf_pending found])
    exact ⟨_, rfl, held.moves_one left (by simp only [HttpHost.events, owner]; rfl)
      h.pollingUpdateTimer⟩

end Serving

/-! ### Routes -/

theorem IsRouted.mono {h h' : HttpHost} (kept : h.registeredRoutes ⊆ h'.registeredRoutes)
    {requestDetails : HttpRequestDetails} (routed : IsRouted h requestDetails) :
    IsRouted h' requestDetails := by
  obtain ⟨method, route, member, rest⟩ := routed
  exact ⟨method, route, kept member, rest⟩

/-- Requests are routed by uWebSockets, to a route that it was given. -/
theorem isRouted_of_event {h : HttpHost} {action : HttpAction} (registered : Registered h)
    (enabled : h.IsEnabled action) {requestID : LuaString} {requestDetails : HttpRequestDetails}
    (meant : ExchangeEvent.routed requestDetails ∈
      (h.events action).filterMap (SessionEvent.concerning requestID)) :
    IsRouted h requestDetails := by
  obtain ⟨event, listed, concerned⟩ := List.mem_filterMap.mp meant
  have is : ∀ {other : LuaString} {one : ExchangeEvent}, event = .one other one →
      one = .routed requestDetails := by
    rintro other one rfl
    rw [SessionEvent.concerning] at concerned
    split at concerned
    · exact Option.some.inj concerned
    · cases concerned
  -- only this step routes a request
  cases action with
  | request other response request route =>
    have details : request.details route = requestDetails :=
      ExchangeEvent.routed.inj (is (List.mem_singleton.mp listed))
    obtain ⟨-, method, given, hit⟩ := enabled
    rw [registered.given] at given
    obtain ⟨⟨method', route'⟩, member, same⟩ := List.mem_map.mp given
    cases same
    cases details
    exact ⟨method, route', member, rfl, hit⟩
  | addRoute route method => cases listed
  | processDeferredEvent => cases listed
  | startListening listenSocket port =>
    cases listenSocket with
    | none => cases listed
    | some socket => exact absurd (is (List.mem_singleton.mp listed)) nofun
  | stopListening clients requests =>
    rw [HttpHost.events] at listed
    split at listed
    · rcases List.mem_pair.mp listed with rfl | one
      · cases concerned
      · exact absurd (is one) nofun
    · cases listed
  | respond other response => exact absurd (is (List.mem_singleton.mp listed)) nofun
  | data other chunk isLast => exact absurd (is (List.mem_singleton.mp listed)) nofun
  | writable other => exact absurd (is (List.mem_singleton.mp listed)) nofun
  | abort response =>
    rw [HttpHost.events] at listed
    cases owner : h.world.responses response with
    | none =>
      rw [owner] at listed
      cases listed
    | some other =>
      rw [owner] at listed
      exact absurd (is (List.mem_singleton.mp listed)) nofun

/-- Every request that waits was for a route that is registered. -/
structure Hosted (limit : UInt64) (h : HttpHost) : Prop where
  serving : Serving limit h
  registered : Registered h
  routed : ∀ requestID requestDetails, (h.exchanges requestID).phase = .pending requestDetails →
    IsRouted h requestDetails

namespace Hosted

variable {limit : UInt64} {h : HttpHost}

theorem construct (limit : UInt64) : Hosted limit (.construct { maxPayloadSize := limit }) where
  serving := Serving.construct limit
  registered := ⟨rfl, List.forall_mem_nil _, List.nodup_nil⟩
  routed requestID requestDetails waiting := by
    have missing : (HttpHost.construct { maxPayloadSize := limit }).world.phaseOf requestID ≠
        .pending requestDetails := World.phaseOf_missing (AList.lookup_empty requestID) requestDetails
    exact absurd waiting missing

theorem step (held : Hosted limit h) (action : HttpAction) (enabled : h.IsEnabled action) :
    ∃ h', h.step action = .ok h' ∧ Hosted limit h' ∧ Moves limit h h' action := by
  obtain ⟨h', ran, serving, moves⟩ := held.serving.step action enabled
  refine ⟨h', ran, ⟨serving, moves.registered held.registered, ?_⟩, moves⟩
  intro requestID requestDetails waiting
  rw [moves.exchanges, foldl_sessionsAfter] at waiting
  -- it has waited before, or it was routed by this step
  rcases Exchange.pending_of_foldl waiting with before | now
  · exact (held.routed requestID requestDetails before).mono moves.kept
  · exact (isRouted_of_event held.registered enabled now).mono moves.kept

end Hosted

theorem httpServer_inductive (limit : UInt64) : (httpServer limit).Inductive (Hosted limit) where
  initial h := by
    rintro rfl
    exact Hosted.construct limit
  preserved h action held enabled := by
    obtain ⟨h', ran, held', -⟩ := held.step action enabled
    exact ⟨h', ran, held'⟩

theorem httpServer_simulates (limit : UInt64) :
    (httpServer limit).Simulates (Hosted limit) HttpHost.exchanges HttpHost.events
      (sessionsAfter (Exchange.after limit)) := by
  intro h action h' held enabled ran
  obtain ⟨next, ran', -, moves⟩ := held.step action enabled
  obtain rfl := Except.ok.inj (ran'.symm.trans ran)
  exact moves.exchanges

/-! ## Main result -/

theorem getRequestDetails_eq (h : HttpHost) (requestID : LuaString) (order : List LuaString) :
    h.httpServer.GetRequestDetails requestID order =
      (h.exchanges requestID).details h.maxPayloadSize order := by
  have phase : (h.exchanges requestID).phase = h.world.phaseOf requestID := rfl
  have looked : ∀ text bufferSize, h.httpServer.nativeHandle.getRequestText requestID text bufferSize =
      (h.world.server.httpClientsMap.lookup requestID).bind fun data =>
        (text data.requestDetails).map (copyCString bufferSize) := by
    intro text bufferSize
    change WebServer.getRequestText h.world.server requestID text bufferSize = _
    rw [WebServer.getRequestText]
    cases h.world.server.httpClientsMap.lookup requestID <;> rfl
  have known : h.httpServer.HasRequestDetails requestID =
      (h.world.server.httpClientsMap.lookup requestID).isSome := rfl
  rw [HttpServer.GetRequestDetails, known, Exchange.details, phase]
  cases found : h.world.server.httpClientsMap.lookup requestID with
  | none =>
    have missing := World.phaseOf_missing found
    rw [if_pos (by simp)]
    split
    next requestDetails pending => exact absurd pending (missing requestDetails)
    next => rfl
  | some data =>
    rw [if_neg (by simp), World.phaseOf_pending found]
    simp only [HttpServer.GetRequestMethod, HttpServer.GetRequestURL, HttpServer.GetRequestQuery,
      HttpServer.GetRequestEndpoint, HttpServer.GetRequestHeaders, WebServer.getRequestMethod,
      WebServer.getRequestURL, WebServer.getRequestQuery, WebServer.getRequestEndpoint,
      WebServer.getSerializedRequestHeaders, looked, found, HttpRequestDetails.read, shown,
      Option.bind_some, Option.map_some]
    have size : h.httpServer.maxPayloadSize = h.maxPayloadSize := rfl
    rw [size]
    split <;> rfl

/-- Each request is served as if it were the only one: its exchange is what its own events
make of it, Lua gets its replies and its details, it was for a route that is registered,
and once it is over its response is left alone. No step fails. -/
structure RequestsIsolated (maxPayloadSize : UInt64) (actions : List HttpAction) (h : HttpHost) :
    Prop where
  exchange : ∀ requestID, h.exchanges requestID =
    (((httpServer maxPayloadSize).eventsAlong HttpHost.events actions
      (.construct { maxPayloadSize })).filterMap (SessionEvent.concerning requestID)).foldl
        (Exchange.after maxPayloadSize) {}
  replies : ∀ requestID response, ∃ h', h.respond requestID response =
    .ok (((h.exchanges (cString requestID)).respond maxPayloadSize response).1, h')
  details : ∀ requestID order, h.httpServer.GetRequestDetails (cString requestID) order =
    (h.exchanges (cString requestID)).details maxPayloadSize.toNat order
  routed : ∀ requestID requestDetails,
    (h.exchanges requestID).phase = .pending requestDetails → IsRouted h requestDetails
  ended : ∀ requestID, (h.exchanges requestID).IsOver → ∀ later h',
    (httpServer maxPayloadSize).Run h later h' →
      (h'.exchanges requestID).phase = (h.exchanges requestID).phase ∧
        (h'.exchanges requestID).said = (h.exchanges requestID).said
  noFault : ∀ action, h.IsEnabled action → ∃ h', h.step action = .ok h'

theorem requests_isolated (maxPayloadSize : UInt64) (actions : List HttpAction) (h : HttpHost)
    (run : (httpServer maxPayloadSize).Run (.construct { maxPayloadSize }) actions h) :
    RequestsIsolated maxPayloadSize actions h := by
  have start := Hosted.construct maxPayloadSize
  have held : Hosted maxPayloadSize h := (httpServer_inductive maxPayloadSize).run run start
  have simulates := httpServer_simulates maxPayloadSize
  have limited := held.serving.limited
  constructor
  case exchange =>
    intro requestID
    rw [simulates.session (httpServer_inductive maxPayloadSize) run start]
    rfl
  case replies =>
    intro requestID response
    obtain ⟨world, ran, -⟩ := answers held.serving.world requestID response
    rw [limited] at ran
    exact ⟨{ h with world }, ran⟩
  case details =>
    intro requestID order
    rw [getRequestDetails_eq, held.serving.size]
  case routed => exact held.routed
  case ended =>
    intro requestID ended later h' run'
    -- whatever concerns it later finds it over
    rw [simulates.session (httpServer_inductive maxPayloadSize) run' held]
    exact Exchange.foldl_over ended _
  case noFault =>
    intro action enabled
    obtain ⟨h', ran, -⟩ := held.step action enabled
    exact ⟨h', ran⟩

/-- A route is added and hit, and the request is answered. -/
theorem requests_isolated_greeting :
    ∃ h, (h.exchanges (ascii "47183823-2574-4bfd-b411-99ed177d3e43")).said =
        [.finish (ascii "Hello world!")] ∧
      RequestsIsolated (16 * 1024 * 1024)
        [.addRoute (ascii "/hello") (some (ascii "GET")),
          .request (ascii "47183823-2574-4bfd-b411-99ed177d3e43") 2
            ⟨ascii "get", ascii "/hello", [], []⟩ (ascii "/hello"),
          .respond (ascii "47183823-2574-4bfd-b411-99ed177d3e43") (.send (ascii "Hello world!"))]
        h := by
  refine ⟨_, ?_, requests_isolated (16 * 1024 * 1024) _ _ <| System.run_of_follows
    ⟨_, trivial, rfl, _, ⟨⟨⟨by decide, by decide⟩, List.not_mem_nil, rfl⟩,
      ascii "GET", List.mem_singleton.mpr rfl, Or.inr rfl⟩, rfl, _, trivial, rfl, rfl⟩⟩
  rfl

end EvoRuntime.Server
