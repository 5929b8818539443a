import EvoRuntime.Server.WebServer

/-!
# Interleavings of callbacks and calls

`Action` lists what may happen to the server, one thing at a time: callbacks of
uWebSockets, calls from Lua, and polls. `Enabled` is what is assumed of uWebSockets: it
gives every request and client a new ID, hands out no address twice at the same time,
calls handlers for valid responses and open sockets only, and iterating a map lists
each of its keys once.
-/
namespace EvoRuntime.Server

open Lua Library

/-- The text of an `uuid_rfc_string_t`. -/
def IsUuid (text : LuaString) : Prop := text.length = 36 ∧ 0 ∉ text

instance (text : LuaString) : Decidable (IsUuid text) := inferInstanceAs (Decidable (_ ∧ _))

inductive RequestAccessor where
  | hasRequest
  | getRequestMethod (bufferSize : Nat)
  | getRequestURL (bufferSize : Nat)
  | getRequestQuery (bufferSize : Nat)
  | getRequestEndpoint (bufferSize : Nat)
  | getRequestHeader (headerName : LuaString) (bufferSize : Nat)
  | getSerializedRequestHeaders (order : List LuaString) (bufferSize : Nat)

/-- Whether the accessor returns true. -/
def RequestAccessor.succeeds (server : WebServer) (requestID : LuaString) :
    RequestAccessor → Bool
  | hasRequest => server.hasRequest requestID
  | getRequestMethod bufferSize => (server.getRequestMethod requestID bufferSize).isSome
  | getRequestURL bufferSize => (server.getRequestURL requestID bufferSize).isSome
  | getRequestQuery bufferSize => (server.getRequestQuery requestID bufferSize).isSome
  | getRequestEndpoint bufferSize => (server.getRequestEndpoint requestID bufferSize).isSome
  | getRequestHeader headerName bufferSize =>
    (server.getRequestHeader requestID headerName bufferSize).isSome
  | getSerializedRequestHeaders order bufferSize =>
    (server.getSerializedRequestHeaders requestID order bufferSize).isSome

inductive Action where
  | request (requestID : LuaString) (response : Address) (request : HttpRequest)
      (route : LuaString)
  | data (requestID chunk : LuaString) (isLast : Bool)
  | writable (requestID : LuaString)
  | abort (response : Address)
  | writeResponse (requestID data : LuaString) (outcome : World.WriteOutcome)
  | endResponse (requestID data : LuaString)
  | tryEndResponse (requestID data : LuaString) (outcome : World.TryEndOutcome)
  | writeResponseStatus (requestID statusCodeAndText : LuaString)
  | writeResponseHeader (requestID key value : LuaString)
  | accessRequest (requestID : LuaString) (accessor : RequestAccessor)
  | abortAllConnections (order : List LuaString)
  | webSocketOpen (websocket : Address) (clientID : LuaString)
  | webSocketMessage (websocket : Address) (message : LuaString)
  | webSocketClose (websocket : Address) (message : LuaString)
  | setEchoMode (enabledFlag : Bool)
  | purgeFadedClients (order : List LuaString)
  | getNextDeferredEvent (preallocatedEventBuffer : Option EventBuffer)
  | startListening (listenSocket : Option Address) (port : Nat)
  | stopListening (clients requests : List LuaString)

/-- What is assumed of uWebSockets and of the iteration of maps. -/
def Enabled (w : World) : Action → Prop
  | .request requestID response _ _ =>
    IsUuid requestID ∧ requestID ∉ w.history.started ∧ w.responses response = none
  | .data requestID _ _ => requestID ∈ w.history.started
  | .writable requestID => requestID ∈ w.history.started
  | .abort response => (w.responses response).isSome
  | .abortAllConnections order => order.Perm w.server.httpClientsMap.keys
  | .webSocketOpen websocket clientID =>
    IsUuid clientID ∧ clientID ∉ w.history.opened ∧ w.sockets websocket = none
  | .webSocketMessage websocket _ => (w.sockets websocket).isSome
  | .webSocketClose websocket _ => (w.sockets websocket).isSome
  | .purgeFadedClients order => order.Perm w.server.websocketClientsMap.keys
  | .stopListening clients requests =>
    clients.Perm w.server.websocketClientsMap.keys ∧ requests.Perm w.server.httpClientsMap.keys
  | _ => True

instance (w : World) : (action : Action) → Decidable (Enabled w action)
  | .request requestID response _ _ => inferInstanceAs
    (Decidable (IsUuid requestID ∧ requestID ∉ w.history.started ∧ w.responses response = none))
  | .data requestID _ _ => inferInstanceAs (Decidable (requestID ∈ w.history.started))
  | .writable requestID => inferInstanceAs (Decidable (requestID ∈ w.history.started))
  | .abort response => inferInstanceAs (Decidable (w.responses response).isSome)
  | .abortAllConnections order =>
    inferInstanceAs (Decidable (order.Perm w.server.httpClientsMap.keys))
  | .webSocketOpen websocket clientID => inferInstanceAs
    (Decidable (IsUuid clientID ∧ clientID ∉ w.history.opened ∧ w.sockets websocket = none))
  | .webSocketMessage websocket _ => inferInstanceAs (Decidable (w.sockets websocket).isSome)
  | .webSocketClose websocket _ => inferInstanceAs (Decidable (w.sockets websocket).isSome)
  | .purgeFadedClients order =>
    inferInstanceAs (Decidable (order.Perm w.server.websocketClientsMap.keys))
  | .stopListening clients requests => inferInstanceAs
    (Decidable (clients.Perm w.server.websocketClientsMap.keys ∧
      requests.Perm w.server.httpClientsMap.keys))
  | .writeResponse .. | .endResponse .. | .tryEndResponse .. | .writeResponseStatus ..
  | .writeResponseHeader .. | .accessRequest .. | .setEchoMode _ | .getNextDeferredEvent _
  | .startListening .. => isTrue trivial

/-- The type and the client ID that Lua reads from the buffer. -/
def EventBuffer.key (buffer : EventBuffer) : Nat × LuaString :=
  (buffer.type, cString buffer.clientID)

/-- A poll. If an event was taken off the queue, Lua reads it from the buffer. -/
def World.poll (w : World) (preallocatedEventBuffer : Option EventBuffer) : World :=
  let (server, buffer) := getNextDeferredEvent w.server preallocatedEventBuffer
  let popped :=
    if server.deferredEventsQueue.length < w.server.deferredEventsQueue.length then
      (buffer.map EventBuffer.key).toList
    else []
  { w with server, history.popped := w.history.popped ++ popped }

def step (w : World) : Action → Except Fault World
  | .request requestID response request route =>
    .ok (w.onRequest requestID response request route)
  | .data requestID chunk isLast =>
    .ok (if isLast then w.onLastChunkReceived requestID chunk else w.onChunkReceived requestID chunk)
  | .writable requestID => .ok (w.onConnectionWritable requestID)
  | .abort response => .ok (w.abortResponse response)
  | .writeResponse requestID data outcome => return (← w.writeResponse requestID data outcome).2
  | .endResponse requestID data => return (← w.endResponse requestID data).2
  | .tryEndResponse requestID data outcome => return (← w.tryEndResponse requestID data outcome).2
  | .writeResponseStatus requestID statusCodeAndText =>
    return (← w.writeResponseStatus requestID statusCodeAndText).2
  | .writeResponseHeader requestID key value =>
    return (← w.writeResponseHeader requestID key value).2
  | .accessRequest _ _ => .ok w
  | .abortAllConnections order => return (← w.abortAllConnections order).2
  | .webSocketOpen websocket clientID => .ok (w.onWebSocketOpen websocket clientID)
  | .webSocketMessage websocket message => w.onWebSocketMessage websocket message
  | .webSocketClose websocket message => w.closeSocket websocket message
  | .setEchoMode enabledFlag => .ok { w with server.isEchoServer := enabledFlag }
  | .purgeFadedClients order => .ok (w.purgeFadedClients order).2
  | .getNextDeferredEvent preallocatedEventBuffer => .ok (w.poll preallocatedEventBuffer)
  | .startListening listenSocket port => .ok (w.startListening listenSocket port)
  | .stopListening clients requests => w.stopListening clients requests

/-- A server starts without connections, with any limit for payloads. -/
def webServer : System World Action Fault where
  Initial w := ∃ maxPayloadSize, w = { server := { maxPayloadSize } }
  Enabled
  step

instance (w : World) (action : Action) : Decidable (webServer.Enabled w action) :=
  inferInstanceAs (Decidable (Enabled w action))

end EvoRuntime.Server
