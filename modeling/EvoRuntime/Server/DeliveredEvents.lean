import EvoRuntime.Library.Simulations
import EvoRuntime.Server.StepHistory

/-!
# The events that Lua polls

Callbacks of uWebSockets push events, and Lua takes them off the queue one by one.
`announced` says which events the actions of a run push, in which order.

## Main result

In every run the events that Lua has read, and those that wait, are the ones that were
announced, in this order; each poll with a valid buffer reads the next one. They tell the
life of each client: stopping closes every client before the server shuts down, and
purging leaves the clients that are connected.
-/
namespace EvoRuntime.Server

open Lua Library

/-- The events of the actions of a run. -/
def announced (start : World) (actions : List Action) : List (Nat × LuaString) :=
  webServer.eventsAlong (fun w action => (w.gains action).pushed) actions start

theorem pushed_of_run {start w : World} {actions : List Action} (inv : Inv start)
    (run : webServer.Run start actions w) :
    w.history.pushed = start.history.pushed ++ announced start actions := by
  induction run with
  | start => exact (List.append_nil _).symm
  | step before enabled stepped ih =>
    have gained := history_step (webServer_inductive.run before inv) enabled stepped
    rw [announced, before.eventsAlong_concat stepped, ← List.append_assoc, ← announced, ← ih]
    exact congrArg History.pushed gained

/-! ### Clients -/

theorem mem_events_iff (clientID : LuaString) {type : EventType} (client : type.IsClientEvent)
    (events : List (Nat × LuaString)) :
    (type.code, clientID) ∈ events ↔ 0 < (clientEvents clientID events).count type.code := by
  rw [count_clientEvents clientID client, List.count_pos_iff]

namespace Inv

variable {w : World}

/-- A client was opened if and only if this was announced. -/
theorem mem_opened_iff (inv : Inv w) (clientID : LuaString) :
    clientID ∈ w.history.opened ↔ (EventType.open_.code, clientID) ∈ w.history.pushed := by
  rw [mem_events_iff clientID (by decide)]
  by_cases begun : clientID ∈ w.history.opened
  · -- its events begin with the one that it was opened
    obtain ⟨messages, shape⟩ := inv.clients.trace clientID begun
    rw [shape, List.count_cons_self]
    exact iff_of_true begun (Nat.succ_pos _)
  · rw [inv.clients.unopened clientID begun]
    exact iff_of_false begun (Nat.lt_irrefl 0)

theorem mem_closed_iff (inv : Inv w) (clientID : LuaString) :
    clientID ∈ w.history.closed ↔ (EventType.close.code, clientID) ∈ w.history.pushed := by
  rw [mem_events_iff clientID (by decide)]
  by_cases begun : clientID ∈ w.history.opened
  · obtain ⟨messages, shape⟩ := inv.clients.trace clientID begun
    rw [shape, List.count_cons_of_ne (by decide), List.count_append, List.count_replicate,
      if_neg (by decide), Nat.zero_add]
    by_cases done : clientID ∈ w.history.closed <;> simp [done]
  · rw [inv.clients.unopened clientID begun]
    exact iff_of_false (mt (inv.clients.closedOpened clientID) begun) (Nat.lt_irrefl 0)

end Inv

/-! ### Polls -/

/-- As many polls as there are events in the queue read all of them. -/
theorem run_polls {buffer : EventBuffer} (valid : buffer.payload.isSome)
    (queue : List DeferredEvent) {w : World} (inv : Inv w)
    (waiting : w.server.deferredEventsQueue = queue) :
    ∃ w', webServer.Follows (List.replicate queue.length (.getNextDeferredEvent (some buffer))) w w' ∧
      w'.server.deferredEventsQueue = [] ∧
      w'.history.popped = w.history.popped ++ queue.map DeferredEvent.key := by
  induction queue generalizing w with
  | nil => exact ⟨w, rfl, waiting, (List.append_nil _).symm⟩
  | cons event rest ih =>
    have poll := inv.poll_cons valid waiting
    have inv' := inv.poll (some buffer)
    rw [poll] at inv'
    obtain ⟨w', follows, empty, popped⟩ := ih inv' rfl
    refine ⟨w', ⟨_, trivial, congrArg Except.ok poll, follows⟩, empty, popped.trans ?_⟩
    rw [List.map_cons, List.append_assoc]
    rfl

/-! ## Main result -/

/-- What was read and what waits is what was announced, in this order; polls read it; it
tells the life of each client; stopping closes every client before the server shuts down,
and purging leaves the connected ones. -/
structure EventsDelivered (start : World) (actions : List Action) (w : World) : Prop where
  announced : w.history.pushed = announced start actions
  inOrder : w.history.popped ++ w.server.deferredEventsQueue.map DeferredEvent.key =
    w.history.pushed
  polled : ∀ buffer event rest, buffer.payload.isSome →
    w.server.deferredEventsQueue = event :: rest →
    ∃ read, getNextDeferredEvent w.server (some buffer) =
        ({ w.server with deferredEventsQueue := rest }, some read) ∧
      read.key = event.key ∧
      step w (.getNextDeferredEvent (some buffer)) = .ok
        { w with
          server.deferredEventsQueue := rest
          history.popped := w.history.popped ++ [event.key] }
  drained : ∀ buffer, buffer.payload.isSome → ∃ w', webServer.Run w
      (List.replicate w.server.deferredEventsQueue.length (.getNextDeferredEvent (some buffer))) w' ∧
    w'.server.deferredEventsQueue = [] ∧ w'.history.popped = w.history.pushed
  pushedTrace : ∀ clientID, ClientTrace (clientEvents clientID w.history.pushed)
  poppedTrace : ∀ clientID, ClientTrace (clientEvents clientID w.history.popped)
  stopped : ∀ clients requests, Enabled w (.stopListening clients requests) →
    w.server.usListenSocket.isSome → ∃ w' before, step w (.stopListening clients requests) = .ok w' ∧
      w'.history.pushed = before ++ [(EventType.shutdown.code, ascii "SERVER")] ∧
      ∀ clientID, (EventType.open_.code, clientID) ∈ w'.history.pushed →
        before.count (EventType.close.code, clientID) = 1
  purged : ∀ order, Enabled w (.purgeFadedClients order) →
    ∃ w', step w (.purgeFadedClients order) = .ok w' ∧
      ∀ clientID, clientID ∈ w'.server.websocketClientsMap ↔
        (EventType.open_.code, clientID) ∈ w'.history.pushed ∧
          (EventType.close.code, clientID) ∉ w'.history.pushed

theorem events_delivered (maxPayloadSize : UInt64) (actions : List Action) (w : World)
    (run : webServer.Run { server := { maxPayloadSize } } actions w) :
    EventsDelivered { server := { maxPayloadSize } } actions w := by
  have start := Inv.initial maxPayloadSize
  have inv : Inv w := webServer_inductive.run run start
  constructor
  case announced => exact pushed_of_run start run
  case inOrder => exact inv.queue.order
  case polled =>
    intro buffer event rest valid waiting
    obtain ⟨payload, memory⟩ := Option.isSome_iff_exists.mp valid
    refine ⟨EventBuffer.fill payload w.server.maxPayloadSize event, ?_, ?_, ?_⟩
    · simp only [getNextDeferredEvent, memory, waiting]
    · exact key_fill _ _ (inv.queue.copied event (by rw [waiting]; exact List.mem_cons_self))
    · exact congrArg Except.ok (inv.poll_cons valid waiting)
  case drained =>
    intro buffer valid
    obtain ⟨w', follows, empty, popped⟩ := run_polls valid _ inv rfl
    exact ⟨w', System.run_of_follows follows, empty, popped.trans inv.queue.order⟩
  case pushedTrace => exact inv.clients.clientTrace
  case poppedTrace =>
    intro clientID
    -- What was popped is the start of what was pushed.
    refine (inv.clients.clientTrace clientID).of_initial ?_
    rw [← inv.queue.order, clientEvents_append]
    exact List.prefix_append _ _
  case stopped =>
    intro clients requests enabled listening
    obtain ⟨w', before, ran, inv', opened, pushed, closed⟩ :=
      inv.stopListening enabled.1 enabled.2 listening
    refine ⟨w', before, ran, pushed, fun clientID begun => closed clientID ?_⟩
    rw [← opened, inv'.mem_opened_iff]
    exact begun
  case purged =>
    intro order enabled
    refine ⟨_, rfl, fun clientID => ?_⟩
    rw [inv.mem_purgeFadedClients enabled, inv.mem_opened_iff, inv.mem_closed_iff]
    rfl

def sampleClient (digit : UInt8) : LuaString := ascii "0a8a6b8e-3ad5-4bd8-9d4b-5f3a1b0e9c1" ++ [digit]

def sampleBuffer : EventBuffer := ⟨0, [], some (List.replicate 8 0), 0⟩

/-- Two clients come and send messages. One of them leaves and is purged, the other one is
closed when the server stops. Lua polls in between and afterwards. -/
def sampleEvents : List Action :=
  [.startListening (some 9) 9001, .webSocketOpen 3 (sampleClient 48), .webSocketOpen 4 (sampleClient 49),
    .getNextDeferredEvent (some sampleBuffer), .webSocketMessage 3 (ascii "Hello"),
    .webSocketClose 3 [], .getNextDeferredEvent (some sampleBuffer), .getNextDeferredEvent none,
    .purgeFadedClients [sampleClient 48, sampleClient 49], .webSocketMessage 4 (ascii "Hello"),
    .stopListening [sampleClient 49] [], .getNextDeferredEvent (some sampleBuffer),
    .getNextDeferredEvent (some sampleBuffer)]

theorem sampleEvents_taken : (webServer.tryRun sampleEvents {}).isSome := by decide +kernel

theorem events_delivered_sample :
    ∃ w, w.history.popped =
        [(4, ascii "SERVER"), (1, sampleClient 48), (1, sampleClient 49), (2, sampleClient 48)] ∧
      w.server.deferredEventsQueue.map DeferredEvent.key =
        [(3, sampleClient 48), (2, sampleClient 49), (3, sampleClient 49), (5, ascii "SERVER")] ∧
      EventsDelivered {} sampleEvents w :=
  ⟨(webServer.tryRun sampleEvents {}).get sampleEvents_taken, by decide +kernel,
    by decide +kernel, events_delivered (16 * 1024 * 1024) _ _
      (System.run_of_tryRun (Option.some_get sampleEvents_taken).symm)⟩

end EvoRuntime.Server
