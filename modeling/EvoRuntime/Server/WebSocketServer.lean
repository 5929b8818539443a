import EvoRuntime.Server.Messaging

/-!
# The WebSocket server of Lua

`WebSocketServer` polls a server that has no other routes. Every polling update purges
the clients that have faded and hands all deferred events to `OnEvent`; stopping does so
one last time.

## Main result

After every polling update the number of clients is the number of those whose connection
was announced to Lua and whose end was not.

## Proof strategy

`Announced` says that the events that were pushed announce the clients that were opened
and closed. An update hands all of them to Lua, and a purged map has an entry for each
client that is connected.
-/
namespace EvoRuntime.Server

open Lua Library

structure WebSocketServer where
  world : World := {}
  /-- What is left in the buffer is overwritten by the next event. -/
  preallocatedEventBuffer : EventBuffer
  /-- Whether the timer is active. -/
  pollingUpdateTimer : Bool := false
  /-- What `OnEvent` was called with. -/
  handled : List LuaEvent := []

namespace WebSocketServer

def construct (server : WebServer) : WebSocketServer where
  world := { server }
  preallocatedEventBuffer := constructEventBuffer server

def processDeferredEvents (s : WebSocketServer) : WebSocketServer :=
  let (events, server) := Server.processDeferredEvents s.world.server s.preallocatedEventBuffer
  { s with
    world :=
      { s.world with
        server
        history.popped := s.world.history.popped ++
          events.map fun event => (event.eventTypeID, event.clientID) }
    handled := s.handled ++ events }

def purgeConnections (s : WebSocketServer) (order : List LuaString) : WebSocketServer :=
  { s with world := (s.world.purgeFadedClients order).2 }

/-- The timer starts even if the server cannot listen. -/
def startListening (s : WebSocketServer) (listenSocket : Option Address) (port : Nat) :
    WebSocketServer :=
  { s with world := s.world.startListening listenSocket port, pollingUpdateTimer := true }

/-- The callback of the timer. -/
def pollingUpdate (s : WebSocketServer) (order : List LuaString) : WebSocketServer :=
  (s.purgeConnections order).processDeferredEvents

/-- The orders are those in which the maps are iterated. -/
def stopListening (s : WebSocketServer) (clients requests order : List LuaString) :
    Except Fault WebSocketServer := do
  let world ← s.world.stopListening clients requests
  let s := { s with world, pollingUpdateTimer := false }
  return (s.purgeConnections order).processDeferredEvents

/-- `m_websocketClientsMap.size()`. -/
def getNumConnectedClients (s : WebSocketServer) : Nat :=
  s.world.server.websocketClientsMap.keys.length

inductive Action where
  | startListening (listenSocket : Option Address) (port : Nat)
  | stopListening (clients requests order : List LuaString)
  | setEchoMode (enabledFlag : Bool)
  | pollingUpdate (order : List LuaString)
  | open_ (websocket : Address) (clientID : LuaString)
  | message (websocket : Address) (message : LuaString)
  | close (websocket : Address) (message : LuaString)

/-- What is assumed of uWebSockets and of the iteration of maps. -/
def IsEnabled (s : WebSocketServer) : Action → Prop
  | .stopListening clients requests order =>
    Enabled s.world (.stopListening clients requests) ∧
    ∀ world, s.world.stopListening clients requests = .ok world →
      order.Perm world.server.websocketClientsMap.keys
  | .pollingUpdate order =>
    s.pollingUpdateTimer = true ∧ order.Perm s.world.server.websocketClientsMap.keys
  | .open_ websocket clientID => Enabled s.world (.webSocketOpen websocket clientID)
  | .message websocket message => Enabled s.world (.webSocketMessage websocket message)
  | .close websocket message => Enabled s.world (.webSocketClose websocket message)
  | _ => True

def step (s : WebSocketServer) : Action → Except Fault WebSocketServer
  | .startListening listenSocket port => .ok (s.startListening listenSocket port)
  | .stopListening clients requests order => s.stopListening clients requests order
  | .setEchoMode enabledFlag => .ok { s with world.server.isEchoServer := enabledFlag }
  | .pollingUpdate order => .ok (s.pollingUpdate order)
  | .open_ websocket clientID =>
    .ok { s with world := s.world.onWebSocketOpen websocket clientID }
  | .message websocket message =>
    return { s with world := ← s.world.onWebSocketMessage websocket message }
  | .close websocket message => return { s with world := ← s.world.closeSocket websocket message }

end WebSocketServer

/-- A server is constructed with any limit for payloads. -/
def webSocketServer : System WebSocketServer WebSocketServer.Action Fault where
  Initial s := ∃ maxPayloadSize, s = .construct { maxPayloadSize }
  Enabled := WebSocketServer.IsEnabled
  step := WebSocketServer.step

/-! ### What the events announce -/

/-- The clients of the events of a type. -/
def clientsOf (type : EventType) (events : List (Nat × LuaString)) : List LuaString :=
  (events.filter (·.1 = type.code)).map Prod.snd

theorem clientsOf_append (type : EventType) (xs ys : List (Nat × LuaString)) :
    clientsOf type (xs ++ ys) = clientsOf type xs ++ clientsOf type ys := by
  rw [clientsOf, List.filter_append, List.map_append]
  rfl

theorem clientsOf_self (type : EventType) (clientID : LuaString) :
    clientsOf type [(type.code, clientID)] = [clientID] := by
  simp [clientsOf]

theorem clientsOf_other {type other : EventType} (differ : other ≠ type) (clientID : LuaString) :
    clientsOf type [(other.code, clientID)] = [] := by
  have codes : other.code ≠ type.code := fun same => differ (EventType.code_injective same)
  simp [clientsOf, codes]

/-- The events announce the clients that were opened, each of them once, and those that
were closed. -/
structure Announced (history : History) : Prop where
  opened : clientsOf .open_ history.pushed = history.opened
  closed : clientsOf .close history.pushed = history.closed
  distinct : history.opened.Nodup

namespace Announced

variable {history : History}

theorem empty : Announced {} := ⟨rfl, rfl, List.nodup_nil⟩

theorem other (told : Announced history) {type : EventType} (opens : type ≠ .open_)
    (closes : type ≠ .close) (someID : LuaString) :
    Announced { history with pushed := history.pushed ++ [(type.code, someID)] } where
  opened := by rw [clientsOf_append, clientsOf_other opens, List.append_nil, told.opened]
  closed := by rw [clientsOf_append, clientsOf_other closes, List.append_nil, told.closed]
  distinct := told.distinct

theorem open_ (told : Announced history) {clientID : LuaString}
    (fresh : clientID ∉ history.opened) :
    Announced { history with
      opened := history.opened ++ [clientID]
      pushed := history.pushed ++ [(EventType.open_.code, clientID)] } where
  opened := by rw [clientsOf_append, clientsOf_self, told.opened]
  closed := by rw [clientsOf_append, clientsOf_other (by decide), List.append_nil, told.closed]
  distinct := by
    rw [List.nodup_append_comm]
    exact List.nodup_cons.mpr ⟨fresh, told.distinct⟩

theorem close (told : Announced history) (clientID : LuaString) :
    Announced { history with
      closed := history.closed ++ [clientID]
      pushed := history.pushed ++ [(EventType.close.code, clientID)] } where
  opened := by rw [clientsOf_append, clientsOf_other (by decide), List.append_nil, told.opened]
  closed := by rw [clientsOf_append, clientsOf_self, told.closed]
  distinct := told.distinct

end Announced

/-! ### Closing all clients -/

theorem Announced.closeSocket {w w' : World} {websocket : Address} {message : LuaString}
    (told : Announced w.history) (ran : w.closeSocket websocket message = .ok w') :
    Announced w'.history := by
  unfold World.closeSocket at ran
  split at ran
  · cases ran
  · cases ran
    exact told.close _

theorem Announced.disconnectEach {order : List LuaString} {w w' : World}
    (told : Announced w.history) (ran : w.disconnectEach order = .ok w') :
    Announced w'.history := by
  induction order generalizing w with
  | nil =>
    cases ran
    exact told
  | cons clientID order ih =>
    rw [World.disconnectEach] at ran
    split at ran
    · obtain ⟨closed, first, rest⟩ := bind_ok ran
      exact ih (told.closeSocket first) rest
    · exact ih told ran

/-- The loop does not concern requests and polls. -/
theorem disconnectEach_kept {order : List LuaString} {w w' : World}
    (ran : w.disconnectEach order = .ok w') :
    w'.server.httpClientsMap = w.server.httpClientsMap ∧ w'.history.popped = w.history.popped := by
  induction order generalizing w with
  | nil =>
    cases ran
    exact ⟨rfl, rfl⟩
  | cons clientID order ih =>
    rw [World.disconnectEach] at ran
    split at ran
    · obtain ⟨closed, first, rest⟩ := bind_ok ran
      unfold World.closeSocket at first
      split at first
      · cases first
      · cases first
        have kept := ih rest
        exact kept
    · exact ih ran

/-- Without requests there is nothing to abort. -/
theorem abortAllConnections_none {w : World} (none : w.server.httpClientsMap = ∅)
    {order : List LuaString} (all : order.Perm w.server.httpClientsMap.keys) :
    w.abortAllConnections order = .ok (0, w) := by
  rw [none] at all
  obtain rfl := List.perm_nil.mp all
  unfold World.abortAllConnections
  simp only [World.abortEach, bind, Except.bind, pure, Except.pure, List.length_nil]
  rw [← none]

/-! ### The invariant -/

/-- What `OnEvent` was called with, as it was popped. -/
def LuaEvent.key (event : LuaEvent) : Nat × LuaString := (event.eventTypeID, event.clientID)

/-- There are no requests, and Lua has handled the events that were popped. -/
structure Watched (s : WebSocketServer) : Prop where
  world : Inv s.world
  announced : Announced s.world.history
  noRequests : s.world.server.httpClientsMap = ∅
  buffer : s.preallocatedEventBuffer.payload.isSome
  handled : s.handled.map LuaEvent.key = s.world.history.popped
  named : ∀ event ∈ s.handled, event.eventName = uwsEventName event.eventTypeID

namespace Watched

variable {s : WebSocketServer}

theorem construct (maxPayloadSize : UInt64) : Watched (.construct { maxPayloadSize }) where
  world := Inv.initial maxPayloadSize
  announced := Announced.empty
  noRequests := rfl
  buffer := rfl
  handled := rfl
  named := List.forall_mem_nil _

theorem purgeConnections (held : Watched s) (order : List LuaString) :
    Watched (s.purgeConnections order) :=
  { held with world := held.world.purgeFadedClients order }

/-- IDs are short enough for the buffer, so that Lua reads them unchanged. -/
theorem delivered_keys (held : Watched s) :
    (s.world.server.deferredEventsQueue.map (delivered s.world.server.maxPayloadSize)).map
      LuaEvent.key = s.world.server.deferredEventsQueue.map DeferredEvent.key := by
  rw [List.map_map]
  refine List.map_congr_left fun event member => ?_
  have copied := held.world.queue.copied event member
  exact congrArg (event.type.code, ·) (cString_copyCString copied.1 copied.2)

/-- Lua handles every event that was waiting. -/
theorem processDeferredEvents_eq (held : Watched s) :
    s.processDeferredEvents =
      { s with
        world :=
          { s.world with
            server.deferredEventsQueue := []
            history.popped := s.world.history.pushed }
        handled := s.handled ++
          s.world.server.deferredEventsQueue.map (delivered s.world.server.maxPayloadSize) } := by
  have popped := held.world.queue.order
  rw [← held.delivered_keys] at popped
  unfold WebSocketServer.processDeferredEvents
  rw [Server.processDeferredEvents_eq _ _ held.buffer]
  simp only [← popped]
  rfl

theorem processDeferredEvents (held : Watched s) : Watched s.processDeferredEvents := by
  rw [held.processDeferredEvents_eq]
  refine {
    world := ⟨held.world.requests, held.world.clients, List.append_nil _, List.forall_mem_nil _⟩
    announced := ⟨held.announced.opened, held.announced.closed, held.announced.distinct⟩
    noRequests := held.noRequests
    buffer := held.buffer
    handled := ?_
    named := ?_ }
  · rw [List.map_append, held.handled, held.delivered_keys]
    exact held.world.queue.order
  · exact List.forall_mem_append.mpr ⟨held.named, List.forall_mem_map.mpr fun event _ => rfl⟩

theorem startListening (held : Watched s) (listenSocket : Option Address) (port : Nat) :
    Watched (s.startListening listenSocket port) := by
  have world := held.world.startListening listenSocket port
  cases listenSocket with
  | none => exact { held with }
  | some socket =>
    exact { held with
      world
      announced := held.announced.other (by decide) (by decide) (ascii "SERVER") }

/-- What stopping leaves of the world. -/
theorem stopWorld (held : Watched s) {clients requests : List LuaString}
    (enabled : Enabled s.world (.stopListening clients requests)) :
    ∃ world, s.world.stopListening clients requests = .ok world ∧ Inv world ∧
      Announced world.history ∧ world.server.httpClientsMap = ∅ ∧
      world.history.popped = s.world.history.popped ∧
      (s.world.server.usListenSocket.isSome → world.server.websocketClientsMap = ∅) := by
  obtain ⟨world, stopped, inv⟩ := held.world.step (.stopListening clients requests) enabled
  refine ⟨world, stopped, inv, ?_⟩
  unfold Server.step World.stopListening at stopped
  cases listening : s.world.server.usListenSocket with
  | none =>
    rw [listening] at stopped
    cases stopped
    exact ⟨held.announced, held.noRequests, rfl, fun isSet => absurd isSet Bool.false_ne_true⟩
  | some socket =>
    rw [listening] at stopped
    obtain ⟨disconnected, first, rest⟩ := bind_ok stopped
    obtain ⟨each, ran, cleared⟩ := bind_ok first
    have told := held.announced.disconnectEach ran
    have kept := disconnectEach_kept ran
    cases cleared
    have requestsLeft := kept.1.symm ▸ enabled.2
    have none := abortAllConnections_none (w := { each with server.websocketClientsMap := ∅ })
      (kept.1.trans held.noRequests) requestsLeft
    rw [none] at rest
    cases rest
    exact ⟨told.other (by decide) (by decide) (ascii "SERVER"), kept.1.trans held.noRequests,
      kept.2, fun _ => rfl⟩

theorem stopListening (held : Watched s) {clients requests : List LuaString}
    (enabled : Enabled s.world (.stopListening clients requests)) (order : List LuaString) :
    ∃ world, s.world.stopListening clients requests = .ok world ∧
      Watched { s with world, pollingUpdateTimer := false } ∧
      s.stopListening clients requests order =
        .ok (WebSocketServer.pollingUpdate { s with world, pollingUpdateTimer := false } order) ∧
      (s.world.server.usListenSocket.isSome → world.server.websocketClientsMap = ∅) := by
  obtain ⟨world, stopped, inv, announced, noRequests, popped, cleared⟩ := held.stopWorld enabled
  refine ⟨world, stopped, ?_, ?_, cleared⟩
  · exact { held with world := inv, announced, noRequests, handled := held.handled.trans popped.symm }
  · simp only [WebSocketServer.stopListening, stopped, bind, Except.bind, pure, Except.pure]
    rfl

theorem step (held : Watched s) (action : WebSocketServer.Action) (enabled : s.IsEnabled action) :
    ∃ s', s.step action = .ok s' ∧ Watched s' := by
  cases action with
  | startListening listenSocket port => exact ⟨_, rfl, held.startListening listenSocket port⟩
  | stopListening clients requests order =>
    obtain ⟨world, -, held', run, -⟩ := held.stopListening enabled.1 order
    exact ⟨_, run, (held'.purgeConnections order).processDeferredEvents⟩
  | setEchoMode enabledFlag =>
    have world := held.world
    exact ⟨_, rfl, { held with world := ⟨world.requests, world.clients, world.queue⟩ }⟩
  | pollingUpdate order => exact ⟨_, rfl, (held.purgeConnections order).processDeferredEvents⟩
  | open_ websocket clientID =>
    obtain ⟨uuid, fresh, free⟩ := enabled
    exact ⟨_, rfl, { held with
      world := held.world.onWebSocketOpen uuid fresh free
      announced := held.announced.open_ fresh }⟩
  | message websocket message =>
    obtain ⟨clientID, owner⟩ := Option.isSome_iff_exists.mp enabled
    obtain ⟨world, run, inv⟩ := held.world.onWebSocketMessage enabled message
    have received := onWebSocketMessage_queue owner message
    obtain rfl := Except.ok.inj (received.symm.trans run)
    refine ⟨_, by simp only [WebSocketServer.step, received, bind, Except.bind]; rfl, ?_⟩
    exact { held with
      world := inv
      announced := held.announced.other (by decide) (by decide) clientID }
  | close websocket message =>
    obtain ⟨clientID, owner⟩ := Option.isSome_iff_exists.mp enabled
    obtain ⟨world, run, inv, -⟩ := held.world.closeSocket owner message
    refine ⟨_, by simp only [WebSocketServer.step, run, bind, Except.bind]; rfl, ?_⟩
    unfold World.closeSocket at run
    rw [owner] at run
    cases run
    exact { held with world := inv, announced := held.announced.close clientID }

end Watched

theorem webSocketServer_inductive : webSocketServer.Inductive Watched where
  initial s := by
    rintro ⟨maxPayloadSize, rfl⟩
    exact Watched.construct maxPayloadSize
  preserved _ action held enabled := held.step action enabled

/-! ### Counting -/

def connectedClients (history : History) : List LuaString :=
  history.opened.filter (· ∉ history.closed)

theorem connectedClients_nodup {history : History} (distinct : history.opened.Nodup) :
    (connectedClients history).Nodup :=
  distinct.filter _

theorem mem_connectedClients {history : History} {clientID : LuaString} :
    clientID ∈ connectedClients history ↔ clientID ∈ history.opened ∧ clientID ∉ history.closed := by
  rw [connectedClients, List.mem_filter, decide_eq_true_eq]

/-- The clients whose entries are null. -/
def fadedClients (w : World) : List LuaString :=
  w.server.websocketClientsMap.keys.filter
    (w.server.websocketClientsMap.lookup · = some none)

/-- Each entry belongs to a client that is connected or to one that has faded. -/
theorem length_keys {w : World} (inv : Inv w) (distinct : w.history.opened.Nodup) :
    w.server.websocketClientsMap.keys.length =
      (connectedClients w.history).length + (fadedClients w).length := by
  have connected : (w.server.websocketClientsMap.keys.filter
      fun clientID => !decide (w.server.websocketClientsMap.lookup clientID = some none)).Perm
        (connectedClients w.history) := by
    rw [List.perm_ext_iff_of_nodup (w.server.websocketClientsMap.keys_nodup.filter _)
      (connectedClients_nodup distinct)]
    intro clientID
    rw [mem_connectedClients, ← inv.clients.connected, List.mem_filter, Bool.not_eq_true',
      decide_eq_false_iff_not]
    constructor
    · rintro ⟨key, unfaded⟩
      obtain ⟨socket, entry⟩ :=
        Option.isSome_iff_exists.mp (AList.lookup_isSome.mpr (AList.mem_keys.mpr key))
      cases socket with
      | none => exact absurd entry unfaded
      | some websocket => exact ⟨websocket, inv.clients.valid clientID websocket entry⟩
    · rintro ⟨websocket, owner⟩
      have entry := inv.clients.owned websocket clientID owner
      refine ⟨AList.mem_keys.mp (AList.lookup_isSome.mp (by rw [entry]; rfl)), ?_⟩
      rw [entry]
      exact fun same => Option.some_ne_none websocket (Option.some.inj same)
  rw [← connected.length_eq, Nat.add_comm]
  exact List.length_eq_length_filter_add _

/-- Purging counts the entries that it erases. -/
theorem purge_count (order : List LuaString) (distinct : order.Nodup) (count : Nat)
    (clients : WebSocketClients) :
    (order.foldl purgeClient (count, clients)).1 =
      count + (order.filter (clients.lookup · = some none)).length := by
  induction order generalizing count clients with
  | nil => rfl
  | cons clientID order ih =>
    obtain ⟨fresh, distinct⟩ := List.nodup_cons.mp distinct
    rw [List.foldl_cons, purgeClient]
    by_cases faded : clients.lookup clientID = some none
    · -- the other entries are found as before
      have others : order.filter ((clients.erase clientID).lookup · = some none) =
          order.filter (clients.lookup · = some none) :=
        List.filter_congr fun other member => by
          have differ : other ≠ clientID := fun same => fresh (same ▸ member)
          rw [AList.lookup_erase_ne differ]
      rw [if_pos faded, ih distinct, others, List.filter_cons_of_pos (by simpa using faded),
        List.length_cons]
      omega
    · rw [if_neg faded, ih distinct, List.filter_cons_of_neg (by simpa using faded)]

theorem length_purged {w : World} (inv : Inv w) (distinct : w.history.opened.Nodup)
    {order : List LuaString} (all : order.Perm w.server.websocketClientsMap.keys) :
    (w.purgeFadedClients order).2.server.websocketClientsMap.keys.length =
      (connectedClients w.history).length := by
  refine List.Perm.length_eq ?_
  rw [List.perm_ext_iff_of_nodup (AList.keys_nodup _) (connectedClients_nodup distinct)]
  intro clientID
  rw [← AList.mem_keys, inv.mem_purgeFadedClients all, mem_connectedClients]

/-! ### What Lua has heard -/

/-- The clients that `OnEvent` was called for with the name of an event. -/
def WebSocketServer.heardOf (s : WebSocketServer) (eventName : LuaString) : List LuaString :=
  (s.handled.filter (·.eventName = eventName)).map (·.clientID)

/-- The clients whose connection Lua has heard of, and not its end. -/
def WebSocketServer.announcedClients (s : WebSocketServer) : List LuaString :=
  (s.heardOf (ascii "WEBSOCKET_CONNECTION_ESTABLISHED")).filter
    (· ∉ s.heardOf (ascii "WEBSOCKET_CONNECTION_CLOSED"))

/-- The names of the events for clients are their own. -/
theorem uwsEventName_iff {type : EventType} (client : type.IsClientEvent) (code : Nat) :
    uwsEventName code = uwsEventName type.code ↔ code = type.code := by
  refine ⟨fun same => ?_, congrArg uwsEventName⟩
  rcases client with rfl | rfl | rfl <;> revert same <;> unfold uwsEventName <;> split <;>
    first | decide | exact fun same => absurd same (by decide)

namespace Watched

variable {s : WebSocketServer}

theorem heardOf (held : Watched s) {type : EventType} (client : type.IsClientEvent) :
    s.heardOf (uwsEventName type.code) = clientsOf type s.world.history.popped := by
  rw [← held.handled, clientsOf, List.filter_map, List.map_map, WebSocketServer.heardOf]
  refine congrArg _ (List.filter_congr fun event member => ?_)
  rw [held.named event member]
  exact decide_eq_decide.mpr (uwsEventName_iff client event.eventTypeID)

/-- Once everything was popped, Lua knows the clients that are connected. -/
theorem announcedClients (held : Watched s)
    (drained : s.world.history.popped = s.world.history.pushed) :
    s.announcedClients = connectedClients s.world.history := by
  have opened := held.heardOf (Or.inl rfl : EventType.open_.IsClientEvent)
  have closed := held.heardOf (Or.inr (Or.inr rfl) : EventType.close.IsClientEvent)
  rw [drained, held.announced.opened] at opened
  rw [drained, held.announced.closed] at closed
  rw [WebSocketServer.announcedClients]
  exact (congrArg₂ (fun xs ys : List LuaString => xs.filter (· ∉ ys)) opened closed)

/-- What holds after every update. -/
theorem pollingUpdate (held : Watched s) {order : List LuaString}
    (all : order.Perm s.world.server.websocketClientsMap.keys) :
    (s.pollingUpdate order).getNumConnectedClients = (s.pollingUpdate order).announcedClients.length ∧
      (s.pollingUpdate order).world.server.deferredEventsQueue = [] ∧
      (s.pollingUpdate order).getNumConnectedClients = (connectedClients s.world.history).length := by
  have purged := held.purgeConnections order
  have after := purged.processDeferredEvents
  have updated := purged.processDeferredEvents_eq
  have known : (s.pollingUpdate order).announcedClients =
      connectedClients (s.pollingUpdate order).world.history := by
    refine after.announcedClients ?_
    rw [updated]
  have number : (s.pollingUpdate order).getNumConnectedClients =
      (connectedClients s.world.history).length := by
    rw [WebSocketServer.getNumConnectedClients, WebSocketServer.pollingUpdate, updated]
    exact length_purged held.world held.announced.distinct all
  have same : connectedClients (s.pollingUpdate order).world.history =
      connectedClients s.world.history := by
    rw [WebSocketServer.pollingUpdate, updated]
    rfl
  refine ⟨?_, ?_, number⟩
  · rw [number, known, same]
  · rw [WebSocketServer.pollingUpdate, updated]

end Watched

/-! ## Main result -/

/-- The number of clients counts those that are connected and those that have faded,
which purging removes and counts. After every update Lua has handled all events, and the
number is that of the clients that Lua has heard of. After stopping there are none. -/
structure ClientsCounted (s : WebSocketServer) : Prop where
  number : s.getNumConnectedClients =
    (connectedClients s.world.history).length + (fadedClients s.world).length
  purged : ∀ order, order.Perm s.world.server.websocketClientsMap.keys →
    (s.world.purgeFadedClients order).1 = (fadedClients s.world).length ∧
    (s.purgeConnections order).getNumConnectedClients = (connectedClients s.world.history).length
  updated : ∀ order s', s.IsEnabled (.pollingUpdate order) →
    s.step (.pollingUpdate order) = .ok s' →
    s'.getNumConnectedClients = s'.announcedClients.length ∧
      s'.world.server.deferredEventsQueue = []
  stopped : ∀ clients requests order, s.IsEnabled (.stopListening clients requests order) →
    ∃ s', s.step (.stopListening clients requests order) = .ok s' ∧
      s'.getNumConnectedClients = s'.announcedClients.length ∧
      s'.world.server.deferredEventsQueue = [] ∧
      (s.world.server.usListenSocket.isSome → s'.announcedClients = [])

theorem clients_counted (s : WebSocketServer) (reached : webSocketServer.Reachable s) :
    ClientsCounted s := by
  have held := webSocketServer_inductive.reachable reached
  constructor
  case number => exact length_keys held.world held.announced.distinct
  case purged =>
    intro order all
    have counted := purge_count order
      (all.nodup_iff.mpr s.world.server.websocketClientsMap.keys_nodup) 0
      s.world.server.websocketClientsMap
    refine ⟨?_, length_purged held.world held.announced.distinct all⟩
    rw [World.purgeFadedClients, counted, Nat.zero_add, fadedClients]
    exact (all.filter _).length_eq
  case updated =>
    intro order s' enabled stepped
    obtain rfl := Except.ok.inj stepped
    obtain ⟨number, drained, -⟩ := held.pollingUpdate enabled.2
    exact ⟨number, drained⟩
  case stopped =>
    intro clients requests order enabled
    obtain ⟨world, stopped, held', run, cleared⟩ := held.stopListening enabled.1 order
    have all := enabled.2 world stopped
    obtain ⟨number, drained, connected⟩ := held'.pollingUpdate all
    refine ⟨_, run, number, drained, fun listening => ?_⟩
    have none : connectedClients world.history = [] := by
      have counted := length_keys held'.world held'.announced.distinct
      rw [show World.server _ = world.server from rfl, cleared listening] at counted
      exact List.length_eq_zero_iff.mp (Nat.add_eq_zero_iff.mp counted.symm).1
    rw [← List.length_eq_zero_iff, ← number, connected]
    exact List.length_eq_zero_iff.mpr none

/-- One client has connected to a server that polls. -/
theorem clients_counted_one :
    ClientsCounted { (WebSocketServer.construct {}).startListening (some 1) 9001 with
      world := World.onWebSocketOpen
        ((WebSocketServer.construct {}).startListening (some 1) 9001).world 3
        (ascii "0a8a6b8e-3ad5-4bd8-9d4b-5f3a1b0e9c11") } := by
  have start : webSocketServer.Reachable (WebSocketServer.construct {}) :=
    ⟨_, [], ⟨16 * 1024 * 1024, rfl⟩, .start⟩
  have listens : webSocketServer.Enabled (WebSocketServer.construct {})
      (.startListening (some 1) 9001) := trivial
  have opens : webSocketServer.Enabled
      ((WebSocketServer.construct {}).startListening (some 1) 9001)
      (.open_ 3 (ascii "0a8a6b8e-3ad5-4bd8-9d4b-5f3a1b0e9c11")) :=
    ⟨⟨by decide, by decide⟩, List.not_mem_nil, rfl⟩
  exact clients_counted _ ((start.next listens rfl).next opens rfl)

end EvoRuntime.Server
