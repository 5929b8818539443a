import EvoRuntime.Library.Runs
import EvoRuntime.Lua.Strings
import Mathlib.Data.List.AList

/-!
# The web server

`World` is the server together with what uWebSockets keeps for it: the responses that
are valid and the sockets that are open, each with the ID that was stored with it. A
call on a response or a socket that is not valid (any more) is a `Fault`. The history
records what happened; no code depends on it.

Unordered maps are iterated in an order that is a parameter of the step.
-/
namespace EvoRuntime.Server

open Lua Library

/-! ### Data -/

inductive EventType where
  | invalid
  | open_
  | message
  | close
  | listen
  | shutdown
  | httpStart
  | httpData
  | httpEnd
  | httpAbort
  | httpWritable
  deriving DecidableEq

def EventType.code : EventType → Nat
  | invalid => 0
  | open_ => 1
  | message => 2
  | close => 3
  | listen => 4
  | shutdown => 5
  | httpStart => 6
  | httpData => 7
  | httpEnd => 8
  | httpAbort => 9
  | httpWritable => 10

structure DeferredEvent where
  type : EventType
  clientID : LuaString
  payload : LuaString
  deriving DecidableEq

/-- What identifies an event for a client. -/
def DeferredEvent.key (event : DeferredEvent) : Nat × LuaString :=
  (event.type.code, event.clientID)

/-- An address that uWebSockets hands out for a response or a socket. It may be used
again for another one later. -/
abbrev Address := Nat

structure HttpRequestDetails where
  method : LuaString
  url : LuaString
  query : LuaString
  endpoint : LuaString
  headers : AList fun _ : LuaString => LuaString

structure HttpMessageData where
  requestDetails : HttpRequestDetails
  response : Address

/-- What uWebSockets tells about a request while it is routed. -/
structure HttpRequest where
  method : LuaString
  url : LuaString
  query : LuaString
  headers : List (LuaString × LuaString)

structure WebServer where
  usListenSocket : Option Address := none
  deferredEventsQueue : List DeferredEvent := []
  websocketClientsMap : AList fun _ : LuaString => Option Address := ∅
  httpClientsMap : AList fun _ : LuaString => HttpMessageData := ∅
  isEchoServer : Bool := false
  maxPayloadSize : UInt64 := 16 * 1024 * 1024

/-- `HttpSendStatus`. -/
inductive HttpSendStatus where
  | none
  | sent
  | ended
  | sentAndEnded
  deriving DecidableEq

def HttpSendStatus.ofFlags (sent ended : Bool) : HttpSendStatus :=
  match sent, ended with
  | false, false => none
  | true, false => .sent
  | false, true => .ended
  | true, true => sentAndEnded

/-! ### uWebSockets -/

inductive ResponseCall where
  | writeStatus (statusCodeAndText : LuaString)
  | writeHeader (key value : LuaString)
  | write (data : LuaString)
  | tryEnd (data : LuaString)
  | finish (data : LuaString)
  deriving DecidableEq

inductive Fault where
  | invalidResponse
  | invalidSocket
  deriving DecidableEq

structure History where
  started : List LuaString := []
  ended : List LuaString := []
  aborted : List LuaString := []
  opened : List LuaString := []
  closed : List LuaString := []
  pushed : List (Nat × LuaString) := []
  popped : List (Nat × LuaString) := []
  calls : List (LuaString × ResponseCall) := []

structure World where
  server : WebServer := {}
  /-- The valid responses, with the requests that they answer. -/
  responses : Address → Option LuaString := fun _ => none
  /-- The open sockets, with the client IDs in their user data. -/
  sockets : Address → Option LuaString := fun _ => none
  history : History := {}

namespace World

/-- `m_deferredEventsQueue.emplace(type, clientID, payload)`. -/
def emplace (w : World) (type : EventType) (clientID payload : LuaString) : World :=
  { w with
    server.deferredEventsQueue := w.server.deferredEventsQueue ++ [⟨type, clientID, payload⟩]
    history.pushed := w.history.pushed ++ [(type.code, clientID)] }

/-- A call on the response of the request `requestID`. -/
def callResponse (w : World) (requestID : LuaString) (response : Address) (call : ResponseCall) :
    Except Fault World :=
  if w.responses response = some requestID then
    .ok { w with history.calls := w.history.calls ++ [(requestID, call)] }
  else .error .invalidResponse

/-- The response has been sent and becomes invalid. -/
def finishResponse (w : World) (requestID : LuaString) (response : Address) : World :=
  { w with
    responses := Function.update w.responses response none
    history.ended := w.history.ended ++ [requestID] }

/-- `response->end(data)`. -/
def endOn (w : World) (requestID : LuaString) (response : Address) (data : LuaString) :
    Except Fault World := do
  let w ← w.callResponse requestID response (.finish data)
  return w.finishResponse requestID response

/-! ### HTTP requests -/

def onChunkReceived (w : World) (requestID chunk : LuaString) : World :=
  w.emplace .httpData requestID chunk

def onLastChunkReceived (w : World) (requestID chunk : LuaString) : World :=
  w.emplace .httpEnd requestID chunk

def onConnectionWritable (w : World) (requestID : LuaString) : World :=
  w.emplace .httpWritable requestID []

def onConnectionAborted (w : World) (requestID : LuaString) : World :=
  let w := w.emplace .httpAbort requestID []
  { w with server.httpClientsMap := w.server.httpClientsMap.erase requestID }

/-- The peer goes away: the response becomes invalid, and its `onAborted` handler is
called. -/
def abortResponse (w : World) (response : Address) : World :=
  match w.responses response with
  | none => w
  | some requestID =>
    onConnectionAborted
      { w with
        responses := Function.update w.responses response none
        history.aborted := w.history.aborted ++ [requestID] }
      requestID

/-- The request is copied, unless its ID is in use. -/
def storeRequestDetails (w : World) (requestID : LuaString) (response : Address)
    (request : HttpRequest) (route : LuaString) : World :=
  -- another request with this ID would be kept
  if w.server.httpClientsMap.lookup requestID = none then
    let requestDetails : HttpRequestDetails :=
      { method := request.method
        url := request.url
        query := request.query
        endpoint := route
        headers := request.headers.foldl (fun headers (key, value) => headers.insert key value) ∅ }
    { w with
      server.httpClientsMap :=
        w.server.httpClientsMap.insert requestID ⟨requestDetails, response⟩ }
  else w

/-- A route is hit. The response is valid from now on, and its handlers know the ID. -/
def onRequest (w : World) (requestID : LuaString) (response : Address) (request : HttpRequest)
    (route : LuaString) : World :=
  let w :=
    { w with
      responses := Function.update w.responses response (some requestID)
      history.started := w.history.started ++ [requestID] }
  let w := w.emplace .httpStart requestID []
  w.storeRequestDetails requestID response request route

/-- What `write` returns, and whether the peer goes away in the middle of it. -/
structure WriteOutcome where
  success : Bool
  aborted : Bool

def writeResponse (w : World) (requestID data : LuaString) (outcome : WriteOutcome) :
    Except Fault (HttpSendStatus × World) :=
  match w.server.httpClientsMap.lookup requestID with
  | none => .ok (.none, w)
  | some httpMessageData => do
    let w ← w.callResponse requestID httpMessageData.response (.write data)
    -- the peer may go away before `write` returns
    let w := if outcome.aborted then w.abortResponse httpMessageData.response else w
    return (if outcome.success then .sentAndEnded else .none, w)

def endResponse (w : World) (requestID data : LuaString) :
    Except Fault (HttpSendStatus × World) :=
  match w.server.httpClientsMap.lookup requestID with
  | none => .ok (.none, w)
  | some httpMessageData => do
    let w ← w.endOn requestID httpMessageData.response data
    return (.sentAndEnded,
      { w with server.httpClientsMap := w.server.httpClientsMap.erase requestID })

/-- What `tryEnd` does: it ends the response, or not yet, or the peer goes away. The
flag says whether everything was sent. -/
inductive TryEndOutcome where
  | responded (ok : Bool)
  | pending (ok : Bool)
  | aborted (ok : Bool)

/-- `response->tryEnd(data)` returns whether everything was sent and whether the
response has ended. -/
def tryEndOn (w : World) (requestID : LuaString) (response : Address) (data : LuaString)
    (outcome : TryEndOutcome) : Except Fault ((Bool × Bool) × World) := do
  let w ← w.callResponse requestID response (.tryEnd data)
  match outcome with
  | .responded ok => return ((ok, true), w.finishResponse requestID response)
  | .pending ok => return ((ok, false), w)
  | .aborted ok => return ((ok, false), w.abortResponse response)

def tryEndResponse (w : World) (requestID data : LuaString) (outcome : TryEndOutcome) :
    Except Fault (HttpSendStatus × World) :=
  match w.server.httpClientsMap.lookup requestID with
  | none => .ok (.none, w)
  | some httpMessageData => do
    let (result, w) ← w.tryEndOn requestID httpMessageData.response data outcome
    let w :=
      -- the entry is erased as soon as the response has ended
      if result.2 then
        { w with server.httpClientsMap := w.server.httpClientsMap.erase requestID }
      else w
    return (.ofFlags result.1 result.2, w)

/-- `writeStatus` and `writeHeader` return the response, which is not null. -/
def writeHead (w : World) (requestID : LuaString) (call : ResponseCall) :
    Except Fault (Bool × World) :=
  match w.server.httpClientsMap.lookup requestID with
  | none => .ok (false, w)
  | some httpMessageData => do
    let w ← w.callResponse requestID httpMessageData.response call
    return (true, w)

def writeResponseStatus (w : World) (requestID statusCodeAndText : LuaString) :
    Except Fault (Bool × World) :=
  w.writeHead requestID (.writeStatus statusCodeAndText)

def writeResponseHeader (w : World) (requestID key value : LuaString) :
    Except Fault (Bool × World) :=
  w.writeHead requestID (.writeHeader key value)

/-- The loop of `AbortAllConnections`. -/
def abortEach : List LuaString → World → Except Fault World
  | [], w => .ok w
  | requestID :: order, w =>
    match w.server.httpClientsMap.lookup requestID with
    | none => abortEach order w
    | some httpMessageData => do
      let response := httpMessageData.response
      let w ← w.callResponse requestID response (.writeStatus (ascii "503 Service Unavailable"))
      let w ← w.callResponse requestID response
        (.writeHeader (ascii "Content-Type") (ascii "text/plain"))
      let w ← w.endOn requestID response (ascii "Service Unavailable: Server shutting down")
      abortEach order w

/-- `order` lists the keys of the map in the order in which it is iterated. -/
def abortAllConnections (w : World) (order : List LuaString) : Except Fault (Nat × World) := do
  let w ← w.abortEach order
  -- the map is cleared after the loop and not in it
  return (order.length, { w with server.httpClientsMap := ∅ })

/-! ### WebSocket clients -/

def onWebSocketOpen (w : World) (websocket : Address) (clientID : LuaString) : World :=
  let w :=
    { w with
      sockets := Function.update w.sockets websocket (some clientID)
      history.opened := w.history.opened ++ [clientID] }
  let w := w.emplace .open_ clientID []
  { w with
    server.websocketClientsMap := w.server.websocketClientsMap.insert clientID (some websocket) }

def onWebSocketClose (w : World) (clientID message : LuaString) : World :=
  let w := w.emplace .close clientID message
  { w with server.websocketClientsMap := w.server.websocketClientsMap.insert clientID none }

/-- A socket is closed, by the peer or by the server, and its handler is called. -/
def closeSocket (w : World) (websocket : Address) (message : LuaString) : Except Fault World :=
  match w.sockets websocket with
  | none => .error .invalidSocket
  | some clientID =>
    .ok (onWebSocketClose
      { w with
        sockets := Function.update w.sockets websocket none
        history.closed := w.history.closed ++ [clientID] }
      clientID message)

/-- `websocket->send(message)`, which needs the socket to be open. -/
def sendOn (w : World) (websocket : Address) (_message : LuaString) : Except Fault World :=
  if (w.sockets websocket).isSome then .ok w else .error .invalidSocket

def onWebSocketMessage (w : World) (websocket : Address) (message : LuaString) :
    Except Fault World :=
  match w.sockets websocket with
  | none => .error .invalidSocket
  | some clientID =>
    let w := w.emplace .message clientID message
    if w.server.isEchoServer then w.sendOn websocket message else .ok w

/-- The loop of `DisconnectAllClients`. Closing a socket changes the map that is
iterated: the entry of the closed client becomes null. -/
def disconnectEach : List LuaString → World → Except Fault World
  | [], w => .ok w
  | clientID :: order, w =>
    match w.server.websocketClientsMap.lookup clientID with
    | some (some websocket) => do
      let w ← w.closeSocket websocket []
      disconnectEach order w
    | _ => disconnectEach order w

def disconnectAllClients (w : World) (order : List LuaString) : Except Fault World := do
  let w ← w.disconnectEach order
  return { w with server.websocketClientsMap := ∅ }

end World

/-- One entry of the map, which is erased and counted if it is null. -/
def purgeClient (state : Nat × AList fun _ : LuaString => Option Address)
    (clientID : LuaString) : Nat × AList fun _ : LuaString => Option Address :=
  if state.2.lookup clientID = some none then (state.1 + 1, state.2.erase clientID) else state

namespace World

def purgeFadedClients (w : World) (order : List LuaString) : Nat × World :=
  let (numPurgedClients, clients) := order.foldl purgeClient (0, w.server.websocketClientsMap)
  (numPurgedClients, { w with server.websocketClientsMap := clients })

/-! ### The server -/

def startListening (w : World) (listenSocket : Option Address) (port : Nat) : World :=
  match listenSocket with
  | none => w
  | some socket =>
    let w := { w with server.usListenSocket := some socket }
    w.emplace .listen (ascii "SERVER") (decimal port)

def stopListening (w : World) (clients requests : List LuaString) : Except Fault World :=
  match w.server.usListenSocket with
  | none => .ok w
  | some _ => do
    let w ← w.disconnectAllClients clients
    let (_, w) ← w.abortAllConnections requests
    let w := { w with server.usListenSocket := none }
    return w.emplace .shutdown (ascii "SERVER") (ascii "Going Away")

end World

/-! ### Request details -/

namespace WebServer

def hasRequest (server : WebServer) (requestID : LuaString) : Bool :=
  (server.httpClientsMap.lookup requestID).isSome

/-- What is written to the buffer of the caller, or `none` if the call returns false. -/
def getRequestText (server : WebServer) (requestID : LuaString)
    (text : HttpRequestDetails → Option LuaString) (bufferSize : Nat) : Option LuaString :=
  match server.httpClientsMap.lookup requestID with
  | none => none
  | some httpMessageData => (text httpMessageData.requestDetails).map (copyCString bufferSize)

def getRequestMethod (server : WebServer) (requestID : LuaString) (bufferSize : Nat) :=
  server.getRequestText requestID (fun details => some details.method) bufferSize

def getRequestURL (server : WebServer) (requestID : LuaString) (bufferSize : Nat) :=
  server.getRequestText requestID (fun details => some details.url) bufferSize

def getRequestQuery (server : WebServer) (requestID : LuaString) (bufferSize : Nat) :=
  server.getRequestText requestID (fun details => some details.query) bufferSize

def getRequestEndpoint (server : WebServer) (requestID : LuaString) (bufferSize : Nat) :=
  server.getRequestText requestID (fun details => some details.endpoint) bufferSize

def getRequestHeader (server : WebServer) (requestID headerName : LuaString) (bufferSize : Nat) :=
  server.getRequestText requestID (fun details => details.headers.lookup headerName) bufferSize

/-- The lines of all headers, in the order in which the map is iterated. -/
def serializeHeaders (headers : AList fun _ : LuaString => LuaString) (order : List LuaString) :
    LuaString :=
  order.flatMap fun name =>
    match headers.lookup name with
    | none => []
    | some value => name ++ ascii ": " ++ value ++ ascii "\r\n"

def getSerializedRequestHeaders (server : WebServer) (requestID : LuaString)
    (order : List LuaString) (bufferSize : Nat) : Option LuaString :=
  server.getRequestText requestID
    (fun details =>
      let serializedHeaders := serializeHeaders details.headers order
      if serializedHeaders.length + 1 > bufferSize then none else some serializedHeaders)
    bufferSize

end WebServer

/-! ### Polling -/

/-- `uws_webserver_event_t`; a payload may be a null pointer. -/
structure EventBuffer where
  type : Nat
  clientID : LuaString
  payload : Option LuaString
  payloadSize : UInt64

/-- What is written to a preallocated buffer for an event. -/
def EventBuffer.fill (payload : LuaString) (maxPayloadSize : UInt64) (event : DeferredEvent) :
    EventBuffer :=
  let payloadLength := min (maxPayloadSize - 1) (UInt64.ofNat event.payload.length)
  let written := event.payload.take payloadLength.toNat ++ [0]
  { type := event.type.code
    clientID := copyCString 37 event.clientID
    payload := some (written ++ payload.drop written.length)
    payloadSize := payloadLength }

def getNextDeferredEvent (server : WebServer) (preallocatedEventBuffer : Option EventBuffer) :
    WebServer × Option EventBuffer :=
  match preallocatedEventBuffer with
  | none => (server, none)
  | some buffer =>
    match buffer.payload with
    | none => (server, some buffer)
    | some payload =>
      match server.deferredEventsQueue with
      | [] => (server, some buffer)
      | event :: rest =>
        ({ server with deferredEventsQueue := rest },
          some (EventBuffer.fill payload server.maxPayloadSize event))

end EvoRuntime.Server
