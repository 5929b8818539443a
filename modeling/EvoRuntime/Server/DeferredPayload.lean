import EvoRuntime.Server.WebServer
import Mathlib.Data.List.TakeDrop

/-!
# The way of a message to Lua

A message is queued by `OnWebSocketMessage`, copied to the preallocated buffer by
`GetNextDeferredEvent`, and read from there by `ProcessDeferredEvents`. The route
accepts messages of up to `m_maxPayloadSize` bytes and the buffer has room for one more,
but the copy stops one byte earlier.
-/
namespace EvoRuntime.Server

open Lua

/-- The setting of a route that limits the length of messages. -/
structure WebSocketBehavior where
  maxPayloadLength : UInt64

def addWebSocketRoute (server : WebServer) : WebSocketBehavior where
  maxPayloadLength := server.maxPayloadSize

/-- The buffer that `WebSocketServer:Construct` allocates. -/
def constructEventBuffer (server : WebServer) : EventBuffer where
  type := 0
  clientID := List.replicate 37 0
  payload := some (List.replicate (server.maxPayloadSize.toNat + 1) 0)
  payloadSize := 0

def uwsEventName (type : Nat) : LuaString :=
  match type with
  | 1 => ascii "WEBSOCKET_CONNECTION_ESTABLISHED"
  | 2 => ascii "WEBSOCKET_MESSAGE_RECEIVED"
  | 3 => ascii "WEBSOCKET_CONNECTION_CLOSED"
  | 4 => ascii "SERVER_STARTED_LISTENING"
  | 5 => ascii "SERVER_STOPPED_LISTENING"
  | 6 => ascii "HTTP_REQUEST_STARTED"
  | 7 => ascii "HTTP_DATA_RECEIVED"
  | 8 => ascii "HTTP_REQUEST_FINISHED"
  | 9 => ascii "HTTP_CONNECTION_ABORTED"
  | 10 => ascii "HTTP_CONNECTION_WRITABLE"
  | _ => ascii "UNKNOWN_OR_INVALID_WEBSERVER_EVENT"

/-- What `OnEvent` is called with. -/
structure LuaEvent where
  eventName : LuaString
  eventTypeID : Nat
  clientID : LuaString
  message : LuaString
  deriving DecidableEq

/-- What Lua reads from the buffer. -/
def readEvent (cdata : EventBuffer) : LuaEvent where
  eventName := uwsEventName cdata.type
  eventTypeID := cdata.type
  clientID := cString cdata.clientID
  message := (cdata.payload.getD []).take cdata.payloadSize.toNat

/-- The loop of `ProcessDeferredEvents`, for at most `rounds` events. -/
def processEvents : (rounds : Nat) → WebServer → EventBuffer → List LuaEvent × WebServer
  | 0, server, _ => ([], server)
  | rounds + 1, server, cdata =>
    if server.deferredEventsQueue.isEmpty then ([], server)
    else
      let (server, buffer) := getNextDeferredEvent server (some cdata)
      let cdata := buffer.getD cdata
      let (events, server) := processEvents rounds server cdata
      (readEvent cdata :: events, server)

/-- Every round takes one event off the queue, so these rounds are enough. -/
def processDeferredEvents (server : WebServer) (cdata : EventBuffer) :
    List LuaEvent × WebServer :=
  processEvents server.deferredEventsQueue.length server cdata

/-- What arrives in Lua of an event. -/
def delivered (maxPayloadSize : UInt64) (event : DeferredEvent) : LuaEvent where
  eventName := uwsEventName event.type.code
  eventTypeID := event.type.code
  clientID := cString (copyCString 37 event.clientID)
  message :=
    event.payload.take (min (maxPayloadSize - 1) (UInt64.ofNat event.payload.length)).toNat

theorem min_toNat (a b : UInt64) : (min a b).toNat = min a.toNat b.toNat := by
  rw [show min a b = if a ≤ b then a else b from rfl, Nat.min_def]
  simp only [UInt64.le_iff_toNat_le]
  split <;> rfl

theorem readEvent_fill (payload : LuaString) (maxPayloadSize : UInt64) (event : DeferredEvent) :
    readEvent (EventBuffer.fill payload maxPayloadSize event) = delivered maxPayloadSize event := by
  simp only [readEvent, EventBuffer.fill, delivered, Option.getD_some, List.append_assoc,
    LuaEvent.mk.injEq, true_and]
  -- The buffer holds the copied bytes, a NUL and what was there before.
  have fits : (min (maxPayloadSize - 1) (UInt64.ofNat event.payload.length)).toNat ≤
      event.payload.length := by
    rw [min_toNat, UInt64.toNat_ofNat']
    exact Nat.le_trans (Nat.min_le_right _ _) (Nat.mod_le _ _)
  exact List.take_left' (List.length_take_of_le fits)

/-- One round reads the first event, and leaves a buffer that can be used again. -/
theorem getNextDeferredEvent_cons {server : WebServer} {event : DeferredEvent}
    {rest : List DeferredEvent} (waiting : server.deferredEventsQueue = event :: rest)
    {cdata : EventBuffer} (valid : cdata.payload.isSome) :
    ∃ cdata', getNextDeferredEvent server (some cdata) =
        ({ server with deferredEventsQueue := rest }, some cdata') ∧
      cdata'.payload.isSome ∧ readEvent cdata' = delivered server.maxPayloadSize event := by
  obtain ⟨payload, memory⟩ := Option.isSome_iff_exists.mp valid
  refine ⟨EventBuffer.fill payload server.maxPayloadSize event, ?_, rfl, readEvent_fill _ _ _⟩
  simp only [getNextDeferredEvent, memory, waiting]

theorem processEvents_eq (queue : List DeferredEvent) (server : WebServer)
    (waiting : server.deferredEventsQueue = queue) (cdata : EventBuffer)
    (valid : cdata.payload.isSome) :
    processEvents queue.length server cdata =
      (queue.map (delivered server.maxPayloadSize), { server with deferredEventsQueue := [] }) := by
  induction queue generalizing server cdata with
  | nil =>
    cases server
    subst waiting
    rfl
  | cons event rest ih =>
    obtain ⟨cdata', popped, valid', read⟩ := getNextDeferredEvent_cons waiting valid
    rw [List.length_cons, processEvents, if_neg (by simp [waiting])]
    simp only [popped, Option.getD_some, read,
      ih { server with deferredEventsQueue := rest } rfl cdata' valid', List.map_cons]

/-- Lua gets all events that are queued, in their order, and the queue is empty then. -/
theorem processDeferredEvents_eq (server : WebServer) (cdata : EventBuffer)
    (valid : cdata.payload.isSome) :
    processDeferredEvents server cdata =
      (server.deferredEventsQueue.map (delivered server.maxPayloadSize),
        { server with deferredEventsQueue := [] }) :=
  processEvents_eq server.deferredEventsQueue server rfl cdata valid

/-- The queue after a message has arrived. -/
theorem onWebSocketMessage_queue {w : World} {websocket : Address} {clientID : LuaString}
    (connected : w.sockets websocket = some clientID) (message : LuaString) :
    w.onWebSocketMessage websocket message = .ok (w.emplace .message clientID message) := by
  unfold World.onWebSocketMessage
  rw [connected]
  dsimp only
  split
  · exact if_pos (by rw [Option.isSome_iff_exists]; exact ⟨clientID, connected⟩)
  · rfl

theorem delivered_message_iff {maxPayloadSize : UInt64} {message : LuaString}
    (accepted : message.length ≤ maxPayloadSize.toNat) (type : EventType) (clientID : LuaString) :
    (delivered maxPayloadSize ⟨type, clientID, message⟩).message = message ↔
      message.length < maxPayloadSize.toNat ∨ message = [] := by
  have size : (UInt64.ofNat message.length).toNat = message.length :=
    UInt64.toNat_ofNat_of_lt' (Nat.lt_of_le_of_lt accepted maxPayloadSize.toNat_lt)
  simp only [delivered, min_toNat, size, List.take_eq_self_iff]
  -- With a limit of zero the subtraction wraps, but only the empty message is accepted.
  rcases Nat.eq_zero_or_pos maxPayloadSize.toNat with none | positive
  · have empty : message = [] := List.length_eq_zero_iff.mp (by omega)
    simp [empty]
  · have limit : (maxPayloadSize - 1).toNat = maxPayloadSize.toNat - 1 := by
      rw [UInt64.toNat_sub_of_le]
      · rfl
      · rw [UInt64.le_iff_toNat_le]
        exact positive
    rw [limit, ← List.length_eq_zero_iff]
    omega

/-- A message is the last of the events that are processed after it. -/
theorem last_processed (w : World) (websocket : Address) (clientID message : LuaString)
    (connected : w.sockets websocket = some clientID) (w' : World)
    (stepped : w.onWebSocketMessage websocket message = .ok w') :
    (processDeferredEvents w'.server (constructEventBuffer w.server)).1.getLast? =
      some (delivered w.server.maxPayloadSize ⟨.message, clientID, message⟩) := by
  rw [onWebSocketMessage_queue connected] at stepped
  rw [← Except.ok.inj stepped, processDeferredEvents_eq _ _ rfl]
  simp [World.emplace]

/-- A message that was accepted arrives as the last of the events that are processed,
unchanged if and only if it is shorter than the limit or empty. -/
theorem message_arrives_iff (w : World) (websocket : Address) (clientID message : LuaString)
    (connected : w.sockets websocket = some clientID)
    (accepted : message.length ≤ (addWebSocketRoute w.server).maxPayloadLength.toNat) :
    (∃ w' event, w.onWebSocketMessage websocket message = .ok w' ∧
        (processDeferredEvents w'.server (constructEventBuffer w.server)).1.getLast? = some event ∧
        event.eventTypeID = EventType.message.code ∧ event.message = message) ↔
      message.length < w.server.maxPayloadSize.toNat ∨ message = [] := by
  have arrives := delivered_message_iff (show message.length ≤ w.server.maxPayloadSize.toNat from
    accepted) .message clientID
  have received := onWebSocketMessage_queue connected message
  rw [← arrives]
  constructor
  · rintro ⟨w', event, stepped, found, -, same⟩
    rw [last_processed w websocket clientID message connected w' stepped,
      Option.some.injEq] at found
    rw [found, same]
  · intro same
    exact ⟨_, _, received, last_processed w websocket clientID message connected _ received,
      rfl, same⟩

/-- A client of a server with the default limit. -/
def oneClient : World where
  sockets := fun _ => some (ascii "2f9f4a1e-0c2b-4a4e-9c2f-7d8e6b5a4c3d")

theorem message_arrives_iff_hello :
    (∃ w' event, oneClient.onWebSocketMessage 0 (ascii "hello") = .ok w' ∧
        (processDeferredEvents w'.server
          (constructEventBuffer oneClient.server)).1.getLast? = some event ∧
        event.eventTypeID = EventType.message.code ∧ event.message = ascii "hello") ↔
      (ascii "hello").length < oneClient.server.maxPayloadSize.toNat ∨ ascii "hello" = [] :=
  message_arrives_iff oneClient 0 _ (ascii "hello") rfl (by decide)

/-- The last byte of a message of exactly the maximum length is lost. -/
theorem longest_message_truncated :
    ∃ message : LuaString,
      message.length ≤ (addWebSocketRoute oneClient.server).maxPayloadLength.toNat ∧
      ¬ ∃ w' event, oneClient.onWebSocketMessage 0 message = .ok w' ∧
        (processDeferredEvents w'.server
          (constructEventBuffer oneClient.server)).1.getLast? = some event ∧
        event.eventTypeID = EventType.message.code ∧ event.message = message := by
  have limit : (addWebSocketRoute oneClient.server).maxPayloadLength.toNat = 16777216 := rfl
  refine ⟨List.replicate 16777216 0x61, by rw [List.length_replicate, limit], ?_⟩
  rintro ⟨w', event, stepped, found, -, same⟩
  rw [last_processed oneClient 0 _ _ rfl w' stepped, Option.some.injEq] at found
  rw [← found, delivered_message_iff (by rw [List.length_replicate]; exact limit.ge)] at same
  rcases same with shorter | empty
  · rw [List.length_replicate] at shorter
    exact absurd shorter (by decide)
  · exact absurd (congrArg List.length empty) (by rw [List.length_replicate]; decide)

end EvoRuntime.Server
