import EvoRuntime.Server.Lifecycles

/-!
# What each step adds to the history

The history of a run is put together from what its steps add to it. `gains` says what
this is for each action, and `history_step` that the code adds just that. What a run
means to the requests and to the clients is read off it.
-/
namespace EvoRuntime.Server

open Lua Library

namespace History

instance : Append History where
  append h more :=
    { started := h.started ++ more.started
      ended := h.ended ++ more.ended
      aborted := h.aborted ++ more.aborted
      opened := h.opened ++ more.opened
      closed := h.closed ++ more.closed
      pushed := h.pushed ++ more.pushed
      popped := h.popped ++ more.popped
      calls := h.calls ++ more.calls }

theorem append_eq (h more : History) :
    h ++ more =
      { started := h.started ++ more.started
        ended := h.ended ++ more.ended
        aborted := h.aborted ++ more.aborted
        opened := h.opened ++ more.opened
        closed := h.closed ++ more.closed
        pushed := h.pushed ++ more.pushed
        popped := h.popped ++ more.popped
        calls := h.calls ++ more.calls } := rfl

theorem append_empty (h : History) : h ++ ({} : History) = h := by
  simp [append_eq]

theorem append_assoc (h h' h'' : History) : h ++ h' ++ h'' = h ++ (h' ++ h'') := by
  simp [append_eq]

/-- The peer of a request goes away. -/
def left (requestID : LuaString) : History where
  aborted := [requestID]
  pushed := [(EventType.httpAbort.code, requestID)]

/-- A client is disconnected. -/
def disconnected (clientID : LuaString) : History where
  closed := [clientID]
  pushed := [(EventType.close.code, clientID)]

/-- Requests are answered because the server shuts down. -/
def unavailable (requests : List LuaString) : History where
  ended := requests
  calls := requests.flatMap fun requestID =>
    [(requestID, .writeStatus (ascii "503 Service Unavailable")),
      (requestID, .writeHeader (ascii "Content-Type") (ascii "text/plain")),
      (requestID, .finish (ascii "Service Unavailable: Server shutting down"))]

/-- Clients are disconnected one after the other. -/
def disconnectedAll (clients : List LuaString) : History where
  closed := clients
  pushed := clients.map (EventType.close.code, ·)

end History

namespace World

/-- What `tryEnd` adds besides the call. -/
def TryEndOutcome.gains (requestID : LuaString) : TryEndOutcome → History
  | responded _ => { ended := [requestID] }
  | pending _ => {}
  | aborted _ => History.left requestID

/-- A call for a request that is not known adds nothing. -/
def ifKnown (w : World) (requestID : LuaString) (gains : History) : History :=
  if (w.server.httpClientsMap.lookup requestID).isSome then gains else {}

/-- The listed clients that have a socket. -/
def connected (w : World) (clients : List LuaString) : List LuaString :=
  clients.filter fun clientID => (socketOf w.server.websocketClientsMap clientID).isSome

/-- What an action adds to the history. -/
def gains (w : World) : Action → History
  | .request requestID _ _ _ =>
    { started := [requestID], pushed := [(EventType.httpStart.code, requestID)] }
  | .data requestID _ isLast =>
    { pushed := [((if isLast then EventType.httpEnd else .httpData).code, requestID)] }
  | .writable requestID => { pushed := [(EventType.httpWritable.code, requestID)] }
  | .abort response => ((w.responses response).map History.left).getD {}
  | .writeResponse requestID data outcome =>
    w.ifKnown requestID ({ calls := [(requestID, .write data)] } ++
      if outcome.aborted then History.left requestID else {})
  | .endResponse requestID data =>
    w.ifKnown requestID { ended := [requestID], calls := [(requestID, .finish data)] }
  | .tryEndResponse requestID data outcome =>
    w.ifKnown requestID ({ calls := [(requestID, .tryEnd data)] } ++ outcome.gains requestID)
  | .writeResponseStatus requestID statusCodeAndText =>
    w.ifKnown requestID { calls := [(requestID, .writeStatus statusCodeAndText)] }
  | .writeResponseHeader requestID key value =>
    w.ifKnown requestID { calls := [(requestID, .writeHeader key value)] }
  | .abortAllConnections order => History.unavailable order
  | .webSocketOpen _ clientID =>
    { opened := [clientID], pushed := [(EventType.open_.code, clientID)] }
  | .webSocketMessage websocket _ =>
    { pushed := ((w.sockets websocket).map (EventType.message.code, ·)).toList }
  | .webSocketClose websocket _ => ((w.sockets websocket).map History.disconnected).getD {}
  | .getNextDeferredEvent buffer =>
    { popped :=
        if (buffer.bind EventBuffer.payload).isSome then
          (w.server.deferredEventsQueue.take 1).map DeferredEvent.key
        else [] }
  | .startListening listenSocket _ =>
    { pushed := (listenSocket.map fun _ => (EventType.listen.code, ascii "SERVER")).toList }
  | .stopListening clients requests =>
    if w.server.usListenSocket.isSome then
      History.disconnectedAll (w.connected clients) ++ History.unavailable requests ++
        { pushed := [(EventType.shutdown.code, ascii "SERVER")] }
    else {}
  | .accessRequest _ _ | .setEchoMode _ | .purgeFadedClients _ => {}

variable {w w' : World} {requestID : LuaString} {response : Address}

/-! ### Requests -/

/-- A call on a valid response is all that is added. -/
theorem callResponse_cases {call : ResponseCall}
    (called : w.callResponse requestID response call = .ok w') :
    w.responses response = some requestID ∧
      w' = { w with history := w.history ++ { calls := [(requestID, call)] } } := by
  unfold callResponse at called
  split at called
  next valid =>
    refine ⟨valid, (Except.ok.inj called).symm.trans ?_⟩
    simp [History.append_eq]
  next => cases called

theorem history_finishResponse (w : World) (requestID : LuaString) (response : Address) :
    (w.finishResponse requestID response).history = w.history ++ { ended := [requestID] } := by
  simp [History.append_eq, finishResponse]

theorem history_abortResponse (w : World) (response : Address) :
    (w.abortResponse response).history =
      w.history ++ ((w.responses response).map History.left).getD {} := by
  unfold abortResponse
  cases w.responses response with
  | none => exact (History.append_empty w.history).symm
  | some requestID => simp [History.append_eq, onConnectionAborted, emplace, History.left]

/-- The response was sent, and is not valid any more. -/
theorem endOn_cases {data : LuaString} (ran : w.endOn requestID response data = .ok w') :
    w' = { w with
      responses := Function.update w.responses response none
      history := w.history ++ { ended := [requestID], calls := [(requestID, .finish data)] } } := by
  obtain ⟨told, called, finished⟩ := bind_ok ran
  obtain ⟨-, rfl⟩ := callResponse_cases called
  cases finished
  simp [finishResponse, History.append_eq]

theorem ifKnown_none (missing : w.server.httpClientsMap.lookup requestID = none)
    (gains : History) : w.ifKnown requestID gains = {} := by
  rw [ifKnown, missing]
  rfl

theorem ifKnown_some {data : HttpMessageData}
    (found : w.server.httpClientsMap.lookup requestID = some data) (gains : History) :
    w.ifKnown requestID gains = gains := by
  rw [ifKnown, found]
  rfl

theorem history_writeResponse {data : LuaString} {outcome : WriteOutcome}
    {reply : HttpSendStatus × World} (ran : w.writeResponse requestID data outcome = .ok reply) :
    reply.2.history = w.history ++ w.gains (.writeResponse requestID data outcome) := by
  unfold writeResponse at ran
  rw [gains]
  split at ran
  next missing =>
    cases ran
    rw [ifKnown_none missing, History.append_empty]
  next message found =>
    obtain ⟨told, called, rest⟩ := bind_ok ran
    obtain ⟨owner, rfl⟩ := callResponse_cases called
    cases rest
    rw [ifKnown_some found, ← History.append_assoc]
    dsimp only
    -- the peer goes away in the middle of the call, or not
    split
    · rw [history_abortResponse]
      dsimp only
      rw [owner]
      rfl
    · rw [History.append_empty]

theorem history_endResponse {data : LuaString} {reply : HttpSendStatus × World}
    (ran : w.endResponse requestID data = .ok reply) :
    reply.2.history = w.history ++ w.gains (.endResponse requestID data) := by
  unfold endResponse at ran
  rw [gains]
  split at ran
  next missing =>
    cases ran
    rw [ifKnown_none missing, History.append_empty]
  next message found =>
    obtain ⟨ended, finished, rest⟩ := bind_ok ran
    cases endOn_cases finished
    cases rest
    rw [ifKnown_some found]

theorem history_tryEndResponse {data : LuaString} {outcome : TryEndOutcome}
    {reply : HttpSendStatus × World} (ran : w.tryEndResponse requestID data outcome = .ok reply) :
    reply.2.history = w.history ++ w.gains (.tryEndResponse requestID data outcome) := by
  unfold tryEndResponse at ran
  rw [gains]
  split at ran
  next missing =>
    cases ran
    rw [ifKnown_none missing, History.append_empty]
  next message found =>
    obtain ⟨tried, result, rest⟩ := bind_ok ran
    obtain ⟨told, called, outcomes⟩ := bind_ok result
    obtain ⟨owner, rfl⟩ := callResponse_cases called
    rw [ifKnown_some found, ← History.append_assoc]
    cases rest
    cases outcome with
    | responded ok =>
      cases outcomes
      exact history_finishResponse _ requestID message.response
    | pending ok =>
      cases outcomes
      exact (History.append_empty _).symm
    | aborted ok =>
      cases outcomes
      refine (history_abortResponse _ _).trans ?_
      dsimp only
      rw [owner]
      rfl

theorem history_writeHead {call : ResponseCall} {reply : Bool × World}
    (ran : w.writeHead requestID call = .ok reply) :
    reply.2.history = w.history ++ w.ifKnown requestID { calls := [(requestID, call)] } := by
  unfold writeHead at ran
  split at ran
  next missing =>
    cases ran
    rw [ifKnown_none missing, History.append_empty]
  next message found =>
    obtain ⟨told, called, rest⟩ := bind_ok ran
    obtain ⟨-, rfl⟩ := callResponse_cases called
    cases rest
    rw [ifKnown_some found]

/-- The loop answers each request in the order. -/
theorem history_abortEach {order : List LuaString} (ran : w.abortEach order = .ok w')
    (known : ∀ requestID ∈ order, requestID ∈ w.server.httpClientsMap) :
    w'.history = w.history ++ History.unavailable order := by
  induction order generalizing w with
  | nil =>
    cases ran
    exact (History.append_empty _).symm
  | cons requestID order ih =>
    obtain ⟨first, others⟩ := List.forall_mem_cons.mp known
    obtain ⟨data, found⟩ := Option.isSome_iff_exists.mp (AList.lookup_isSome.mpr first)
    rw [abortEach, found] at ran
    obtain ⟨status, called, ran⟩ := bind_ok ran
    obtain ⟨header, called', ran⟩ := bind_ok ran
    obtain ⟨ended, finished, ran⟩ := bind_ok ran
    obtain ⟨-, rfl⟩ := callResponse_cases called
    obtain ⟨-, rfl⟩ := callResponse_cases called'
    obtain rfl := endOn_cases finished
    -- none of the calls changes the map that is iterated
    rw [ih ran others]
    simp [History.append_eq, History.unavailable]

theorem history_abortAllConnections {order : List LuaString} {reply : Nat × World}
    (ran : w.abortAllConnections order = .ok reply)
    (known : ∀ requestID ∈ order, requestID ∈ w.server.httpClientsMap) :
    reply.2.history = w.history ++ History.unavailable order := by
  obtain ⟨aborted, each, rest⟩ := bind_ok ran
  cases rest
  have answered := history_abortEach each known
  exact answered

/-! ### Clients -/

theorem history_closeSocket {websocket : Address} {clientID message : LuaString}
    (owner : w.sockets websocket = some clientID)
    (ran : w.closeSocket websocket message = .ok w') :
    w'.history = w.history ++ History.disconnected clientID ∧
      w'.server.websocketClientsMap = w.server.websocketClientsMap.insert clientID none := by
  unfold closeSocket at ran
  rw [owner] at ran
  cases ran
  exact ⟨by simp [History.append_eq, onWebSocketClose, emplace, History.disconnected], rfl⟩

theorem history_onWebSocketMessage {websocket : Address} {message : LuaString}
    (ran : w.onWebSocketMessage websocket message = .ok w') :
    w'.history = w.history ++ w.gains (.webSocketMessage websocket message) := by
  unfold onWebSocketMessage at ran
  rw [gains]
  split at ran
  next => cases ran
  next clientID owner =>
    have told : (w.emplace .message clientID message).history =
        w.history ++ { pushed := [(EventType.message.code, clientID)] } := by
      simp [History.append_eq, emplace]
    rw [owner]
    dsimp only at ran
    -- an echo is sent without a trace in the history
    split at ran
    · unfold sendOn at ran
      split at ran
      · cases ran
        exact told
      · cases ran
    · cases ran
      exact told

end World

/-- The loop disconnects each client that has a socket, in the order. -/
theorem Inv.history_disconnectEach {order : List LuaString} {w w' : World} (inv : Inv w)
    (distinct : order.Nodup) (ran : w.disconnectEach order = .ok w') :
    w'.history = w.history ++ History.disconnectedAll (w.connected order) := by
  induction order generalizing w with
  | nil =>
    cases ran
    exact (History.append_empty _).symm
  | cons clientID order ih =>
    obtain ⟨new, distinct⟩ := List.nodup_cons.mp distinct
    cases entry : socketOf w.server.websocketClientsMap clientID with
    | none =>
      -- a client without a socket is passed over
      have faded : ∀ websocket,
          w.server.websocketClientsMap.lookup clientID ≠ some (some websocket) := by
        intro websocket found
        rw [socketOf_eq_some_iff.mpr found] at entry
        cases entry
      rw [Inv.disconnectEach_faded faded] at ran
      rw [ih inv distinct ran, World.connected, World.connected, List.filter_cons, entry]
      rfl
    | some websocket =>
      have found := socketOf_eq_some_iff.mp entry
      have owner := inv.clients.valid clientID websocket found
      obtain ⟨closed, done, inv', -⟩ := inv.closeSocket owner []
      rw [World.disconnectEach, found] at ran
      simp only [done, bind, Except.bind] at ran
      obtain ⟨history, clients⟩ := World.history_closeSocket owner done
      -- the others are as before
      have same : closed.connected order = w.connected order := by
        refine List.filter_congr fun other member => ?_
        rw [clients, socketOf_insert, Function.update_of_ne (ne_of_mem_of_not_mem member new)]
      have listed : w.connected (clientID :: order) = clientID :: w.connected order := by
        rw [World.connected, List.filter_cons, entry]
        rfl
      rw [ih inv' distinct ran, history, same, listed]
      simp [History.append_eq, History.disconnected, History.disconnectedAll]

theorem Inv.history_stopListening {w w' : World} (inv : Inv w) {clients requests : List LuaString}
    (enabled : Enabled w (.stopListening clients requests))
    (ran : w.stopListening clients requests = .ok w') :
    w'.history = w.history ++ w.gains (.stopListening clients requests) := by
  unfold World.stopListening at ran
  rw [World.gains]
  split at ran
  next idle =>
    cases ran
    rw [idle]
    exact (History.append_empty _).symm
  next socket listening =>
    obtain ⟨disconnected, first, ran⟩ := bind_ok ran
    obtain ⟨aborted, second, ran⟩ := bind_ok ran
    cases ran
    obtain ⟨each, loop, cleared⟩ := bind_ok first
    have distinct := enabled.1.nodup_iff.mpr w.server.websocketClientsMap.keys_nodup
    have closed := inv.history_disconnectEach distinct loop
    obtain ⟨each', loop', -, requests', -⟩ := Inv.disconnectEach clients w inv
    obtain rfl := Except.ok.inj (loop.symm.trans loop')
    cases cleared
    -- closing the clients leaves the requests as they were
    have known : ∀ requestID ∈ requests, requestID ∈ each.server.httpClientsMap := by
      intro requestID member
      rw [requests']
      exact AList.mem_keys.mpr (enabled.2.mem_iff.mp member)
    have answered := World.history_abortAllConnections second known
    rw [listening]
    have told : (World.emplace { aborted.2 with server.usListenSocket := none } .shutdown
        (ascii "SERVER") (ascii "Going Away")).history =
          aborted.2.history ++ { pushed := [(EventType.shutdown.code, ascii "SERVER")] } := by
      simp [History.append_eq, World.emplace]
    refine told.trans ?_
    rw [answered]
    dsimp only
    rw [closed, History.append_assoc, History.append_assoc, History.append_assoc]
    rfl

/-- A poll with a valid buffer takes the first event off the queue, and Lua reads it. -/
theorem Inv.poll_cons {w : World} (inv : Inv w) {buffer : EventBuffer}
    (valid : buffer.payload.isSome) {event : DeferredEvent} {rest : List DeferredEvent}
    (waiting : w.server.deferredEventsQueue = event :: rest) :
    w.poll (some buffer) =
      { w with
        server.deferredEventsQueue := rest
        history.popped := w.history.popped ++ [event.key] } := by
  obtain ⟨payload, memory⟩ := Option.isSome_iff_exists.mp valid
  have copied := inv.queue.copied event (by rw [waiting]; exact List.mem_cons_self)
  simp only [World.poll, getNextDeferredEvent, memory, waiting, List.length_cons,
    Nat.lt_succ_self, if_true, Option.map_some, Option.toList_some, key_fill _ _ copied]

/-- Without a valid buffer, or with nothing in the queue, a poll does nothing. -/
theorem poll_idle {w : World} {buffer : Option EventBuffer}
    (idle : (buffer.bind EventBuffer.payload).isSome → w.server.deferredEventsQueue = []) :
    w.poll buffer = w := by
  cases buffer with
  | none => simp [World.poll, getNextDeferredEvent]
  | some buffer =>
    cases memory : buffer.payload with
    | none => simp [World.poll, getNextDeferredEvent, memory]
    | some payload =>
      have empty := idle (by simp [memory])
      simp [World.poll, getNextDeferredEvent, memory, empty]

theorem Inv.history_poll {w : World} (inv : Inv w) (buffer : Option EventBuffer) :
    (w.poll buffer).history = w.history ++ w.gains (.getNextDeferredEvent buffer) := by
  rw [World.gains]
  by_cases valid : (buffer.bind EventBuffer.payload).isSome
  · rw [if_pos valid]
    cases waiting : w.server.deferredEventsQueue with
    | nil =>
      rw [poll_idle fun _ => waiting]
      exact (History.append_empty _).symm
    | cons event rest =>
      cases buffer with
      | none => cases valid
      | some buffer =>
        rw [inv.poll_cons valid waiting]
        simp [History.append_eq]
  · rw [if_neg valid, poll_idle fun valid' => absurd valid' valid]
    exact (History.append_empty _).symm

/-- Every step adds to the history what its action says, and nothing else. -/
theorem history_step {w w' : World} (inv : Inv w) {action : Action} (enabled : Enabled w action)
    (stepped : step w action = .ok w') : w'.history = w.history ++ w.gains action := by
  cases action with
  | request requestID response request route =>
    cases stepped
    unfold World.onRequest World.storeRequestDetails
    dsimp only
    split <;> simp [History.append_eq, World.gains, World.emplace]
  | data requestID chunk isLast =>
    cases stepped
    cases isLast <;>
      simp [History.append_eq, World.gains, World.onLastChunkReceived, World.onChunkReceived,
        World.emplace]
  | writable requestID =>
    cases stepped
    simp [History.append_eq, World.gains, World.onConnectionWritable, World.emplace]
  | abort response =>
    cases stepped
    exact World.history_abortResponse w response
  | writeResponse requestID data outcome =>
    obtain ⟨reply, ran, rest⟩ := bind_ok stepped
    cases rest
    exact World.history_writeResponse ran
  | endResponse requestID data =>
    obtain ⟨reply, ran, rest⟩ := bind_ok stepped
    cases rest
    exact World.history_endResponse ran
  | tryEndResponse requestID data outcome =>
    obtain ⟨reply, ran, rest⟩ := bind_ok stepped
    cases rest
    exact World.history_tryEndResponse ran
  | writeResponseStatus requestID statusCodeAndText =>
    obtain ⟨reply, ran, rest⟩ := bind_ok stepped
    cases rest
    exact World.history_writeHead ran
  | writeResponseHeader requestID key value =>
    obtain ⟨reply, ran, rest⟩ := bind_ok stepped
    cases rest
    exact World.history_writeHead ran
  | accessRequest requestID accessor =>
    cases stepped
    exact (History.append_empty _).symm
  | abortAllConnections order =>
    obtain ⟨reply, ran, rest⟩ := bind_ok stepped
    cases rest
    exact World.history_abortAllConnections ran fun requestID member =>
      AList.mem_keys.mpr (enabled.mem_iff.mp member)
  | webSocketOpen websocket clientID =>
    cases stepped
    simp [History.append_eq, World.gains, World.onWebSocketOpen, World.emplace]
  | webSocketMessage websocket message => exact World.history_onWebSocketMessage stepped
  | webSocketClose websocket message =>
    obtain ⟨clientID, owner⟩ := Option.isSome_iff_exists.mp enabled
    rw [World.gains, owner]
    exact (World.history_closeSocket owner stepped).1
  | setEchoMode enabledFlag =>
    cases stepped
    exact (History.append_empty _).symm
  | purgeFadedClients order =>
    cases stepped
    exact (History.append_empty _).symm
  | getNextDeferredEvent buffer =>
    cases stepped
    exact inv.history_poll buffer
  | startListening listenSocket port =>
    cases stepped
    cases listenSocket with
    | none => exact (History.append_empty _).symm
    | some socket => simp [History.append_eq, World.gains, World.startListening, World.emplace]
  | stopListening clients requests => exact inv.history_stopListening enabled stepped

end EvoRuntime.Server
