import EvoRuntime.Server.Interleavings
import EvoRuntime.Server.DeferredPayload
import EvoRuntime.Server.RequestHeaders

/-!
# The HTTP server of Lua

`HttpHost` is an `HttpServer` with everything that changes while it runs: the server
behind its handle, the routes, and what `OnEvent` was called with. Lua answers requests
by their IDs, from handlers or from anywhere else, so `ProcessDeferredEvents` is taken
one round of its loop at a time.
-/
namespace EvoRuntime.Server

open Lua Library

def ANY : LuaString := ascii "ANY"

/-- The keys of `UWS_ROUTING_APIS`. -/
def routingMethods : List LuaString :=
  [ascii "GET", ascii "POST", ascii "OPTIONS", ascii "DELETE", ascii "PATCH", ascii "PUT",
    ascii "HEAD", ANY]

/-- The events that an `HttpServer` has handlers for. -/
def handledEvents : List LuaString :=
  [ascii "SERVER_STARTED_LISTENING", ascii "SERVER_STOPPED_LISTENING",
    ascii "HTTP_REQUEST_STARTED", ascii "HTTP_DATA_RECEIVED", ascii "HTTP_REQUEST_FINISHED",
    ascii "HTTP_CONNECTION_ABORTED", ascii "HTTP_CONNECTION_WRITABLE"]

inductive HttpFault where
  | server (fault : Fault)
  | raised (message : LuaString)

structure HttpHost where
  world : World := {}
  maxPayloadSize : Nat
  preallocatedEventBuffer : EventBuffer
  /-- The methods and routes that are registered. -/
  registeredRoutes : List (LuaString × LuaString) := []
  /-- The methods and routes that uWebSockets was given. -/
  routes : List (LuaString × LuaString) := []
  /-- Whether the timer is active. -/
  pollingUpdateTimer : Bool := false
  /-- What `OnEvent` was called with. -/
  handled : List LuaEvent := []

namespace HttpHost

def construct (server : WebServer) : HttpHost where
  world := { server }
  maxPayloadSize := server.maxPayloadSize.toNat
  preallocatedEventBuffer := constructEventBuffer server

/-- The requests are read from the server in its present state. -/
def httpServer (h : HttpHost) : HttpServer where
  nativeHandle := h.world.server
  maxPayloadSize := h.maxPayloadSize

/-- The port is `DEFAULT_PORT` if there is none, and the timer starts even if the server
cannot listen. -/
def StartListening (h : HttpHost) (listenSocket : Option Address) (port : Option Nat) :
    HttpHost :=
  { h with
    world := h.world.startListening listenSocket (port.getD 9001)
    pollingUpdateTimer := true }

/-- The orders are those in which the maps are iterated. The rounds that handle the
remaining events follow. -/
def StopListening (h : HttpHost) (clients requests : List LuaString) : Except Fault HttpHost := do
  let world ← h.world.stopListening clients requests
  return { h with world, pollingUpdateTimer := false }

/-- An event without a handler is unknown to the server, which raises an error. -/
def OnEvent (h : HttpHost) (event : LuaEvent) : Except LuaString HttpHost :=
  if handledEvents.contains event.eventName then .ok { h with handled := h.handled ++ [event] }
  else .error (ascii "Encountered unknown WebSocket event " ++ event.eventName ++
    ascii " (this should never happen)")

/-- One round of the loop of `ProcessDeferredEvents`. -/
def processDeferredEvent (h : HttpHost) : Except LuaString HttpHost :=
  let (server, buffer) := getNextDeferredEvent h.world.server (some h.preallocatedEventBuffer)
  let cdata := buffer.getD h.preallocatedEventBuffer
  let event := readEvent cdata
  OnEvent
    { h with
      world :=
        { h.world with
          server
          history.popped := h.world.history.popped ++ [(event.eventTypeID, event.clientID)] }
      preallocatedEventBuffer := cdata }
    event

/-- A route is read as a C string by uWebSockets, and it is registered as it is. -/
def AddRoute (h : HttpHost) (route : LuaString) (method : Option LuaString) :
    Except LuaString HttpHost :=
  let method := method.getD ANY
  if ¬routingMethods.contains method then
    .error (ascii "Failed to add HTTP route (invalid method: " ++ method ++ ascii ")")
  else if h.registeredRoutes.contains (method, route) then
    .error (ascii "Failed to add HTTP route (already registered: " ++ route ++ ascii ")")
  else
    .ok { h with
      registeredRoutes := h.registeredRoutes ++ [(method, route)]
      routes := h.routes ++ [(method, cString route)] }

/-! ### Responses -/

/-- The new world of a call that returns something. -/
def within {ρ : Type} (h : HttpHost) (call : Except Fault (ρ × World)) :
    Except Fault (ρ × HttpHost) := do
  let (result, world) ← call
  return (result, { h with world })

def WriteResponse (h : HttpHost) (requestID message : LuaString) (outcome : World.WriteOutcome) :=
  h.within (h.world.writeResponse (cString requestID) message outcome)

def SendResponse (h : HttpHost) (requestID message : LuaString) :=
  h.within (h.world.endResponse (cString requestID) message)

def StreamResponse (h : HttpHost) (requestID message : LuaString)
    (outcome : World.TryEndOutcome) :=
  h.within (h.world.tryEndResponse (cString requestID) message outcome)

def WriteStatus (h : HttpHost) (requestID statusCodeAndText : LuaString) :=
  h.within (h.world.writeResponseStatus (cString requestID) (cString statusCodeAndText))

def WriteHeader (h : HttpHost) (requestID headerName headerValue : LuaString) :=
  h.within (h.world.writeResponseHeader (cString requestID) (cString headerName)
    (cString headerValue))

end HttpHost

/-- What Lua may do to a response. -/
inductive Response where
  | write (message : LuaString) (outcome : World.WriteOutcome)
  | send (message : LuaString)
  | stream (message : LuaString) (outcome : World.TryEndOutcome)
  | status (statusCodeAndText : LuaString)
  | header (headerName headerValue : LuaString)

/-- What it gets back. -/
inductive Reply where
  | status (status : HttpSendStatus)
  | flag (success : Bool)
  deriving DecidableEq

def HttpHost.respond (h : HttpHost) (requestID : LuaString) :
    Response → Except Fault (Reply × HttpHost)
  | .write message outcome => do
    let (status, h) ← h.WriteResponse requestID message outcome
    return (.status status, h)
  | .send message => do
    let (status, h) ← h.SendResponse requestID message
    return (.status status, h)
  | .stream message outcome => do
    let (status, h) ← h.StreamResponse requestID message outcome
    return (.status status, h)
  | .status statusCodeAndText => do
    let (success, h) ← h.WriteStatus requestID statusCodeAndText
    return (.flag success, h)
  | .header headerName headerValue => do
    let (success, h) ← h.WriteHeader requestID headerName headerValue
    return (.flag success, h)

/-! ### Runs -/

inductive HttpAction where
  | addRoute (route : LuaString) (method : Option LuaString)
  | startListening (listenSocket : Option Address) (port : Option Nat)
  | stopListening (clients requests : List LuaString)
  | processDeferredEvent
  | respond (requestID : LuaString) (response : Response)
  | request (requestID : LuaString) (response : Address) (request : HttpRequest)
      (route : LuaString)
  | data (requestID chunk : LuaString) (isLast : Bool)
  | writable (requestID : LuaString)
  | abort (response : Address)

/-- A route is hit by requests with its method. -/
def IsHit (method : LuaString) (request : HttpRequest) : Prop :=
  method = ANY ∨ upper request.method = method

namespace HttpHost

/-- What is assumed of uWebSockets and of the iteration of maps. A round of the loop needs
an event. -/
def IsEnabled (h : HttpHost) : HttpAction → Prop
  | .stopListening clients requests => Enabled h.world (.stopListening clients requests)
  | .processDeferredEvent => h.world.server.deferredEventsQueue ≠ []
  | .request requestID response request route =>
    Enabled h.world (.request requestID response request route) ∧
    ∃ method, (method, route) ∈ h.routes ∧ IsHit method request
  | .data requestID chunk isLast => Enabled h.world (.data requestID chunk isLast)
  | .writable requestID => Enabled h.world (.writable requestID)
  | .abort response => Enabled h.world (.abort response)
  | _ => True

def step (h : HttpHost) : HttpAction → Except HttpFault HttpHost
  | .addRoute route method =>
    -- an error leaves the server as it was
    match h.AddRoute route method with
    | .ok h' => .ok h'
    | .error _ => .ok h
  | .startListening listenSocket port => .ok (h.StartListening listenSocket port)
  | .stopListening clients requests => (h.StopListening clients requests).mapError .server
  | .processDeferredEvent => h.processDeferredEvent.mapError .raised
  | .respond requestID response => ((h.respond requestID response).map Prod.snd).mapError .server
  | .request requestID response request route =>
    .ok { h with world := h.world.onRequest requestID response request route }
  | .data requestID chunk isLast =>
    .ok { h with
      world := if isLast then h.world.onLastChunkReceived requestID chunk
        else h.world.onChunkReceived requestID chunk }
  | .writable requestID => .ok { h with world := h.world.onConnectionWritable requestID }
  | .abort response => .ok { h with world := h.world.abortResponse response }

end HttpHost

/-- A server with a limit for payloads. -/
def httpServer (maxPayloadSize : UInt64) : System HttpHost HttpAction HttpFault where
  Initial h := h = .construct { maxPayloadSize }
  Enabled := HttpHost.IsEnabled
  step := HttpHost.step

end EvoRuntime.Server
