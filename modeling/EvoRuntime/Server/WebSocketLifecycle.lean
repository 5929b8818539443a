import EvoRuntime.Library.Pairing
import EvoRuntime.Server.Interleavings

/-!
# The life of a WebSocket client

`Clients` ties the map of the server to the open sockets: a client that is connected
has an entry with its socket, and entries of closed clients are null. The events that
were pushed for a client tell its life.

`Fifo` says that the queue holds the events that were pushed and not yet popped.
-/
namespace EvoRuntime.Server

open Lua Library

abbrev WebSocketClients := AList fun _ : LuaString => Option Address

/-! ### The events of a client -/

/-- The events of WebSocket connections. -/
def EventType.IsClientEvent (type : EventType) : Prop :=
  type = open_ ∨ type = message ∨ type = close

instance (type : EventType) : Decidable type.IsClientEvent :=
  inferInstanceAs (Decidable (_ ∨ _))

theorem EventType.code_injective {type type' : EventType} (same : type.code = type'.code) :
    type = type' := by
  cases type <;> cases type' <;> first | rfl | exact absurd same (by decide)

def isClientCode (code : Nat) : Bool := code == 1 || code == 2 || code == 3

/-- The codes of the WebSocket events of one client. -/
def clientEvents (clientID : LuaString) (events : List (Nat × LuaString)) : List Nat :=
  (events.filter fun event => event.2 == clientID && isClientCode event.1).map Prod.fst

/-- One client is opened, sends messages, and is closed, or a start of that. -/
def ClientTrace (events : List Nat) : Prop :=
  events = [] ∨ ∃ messages closes, closes ≤ 1 ∧
    events = EventType.open_.code :: (List.replicate messages EventType.message.code ++
      List.replicate closes EventType.close.code)

theorem clientEvents_append (clientID : LuaString) (xs ys : List (Nat × LuaString)) :
    clientEvents clientID (xs ++ ys) = clientEvents clientID xs ++ clientEvents clientID ys := by
  simp [clientEvents]

theorem isClientCode_code (type : EventType) :
    isClientCode type.code = true ↔ type.IsClientEvent := by
  cases type <;> decide

theorem clientEvents_singleton (clientID : LuaString) (type : EventType) (other : LuaString) :
    clientEvents clientID [(type.code, other)] =
      if other = clientID ∧ type.IsClientEvent then [type.code] else [] := by
  rw [clientEvents, List.filter_singleton]
  by_cases both : other = clientID ∧ type.IsClientEvent
  · rw [if_pos both, (isClientCode_code type).mpr both.2, both.1, beq_self_eq_true]
    rfl
  · have dropped : (other == clientID && isClientCode type.code) = false := by
      rw [← Bool.not_eq_true, Bool.and_eq_true, beq_iff_eq, isClientCode_code]
      exact both
    rw [if_neg both, dropped]
    rfl

/-- A new event of a client is seen by this client only. -/
theorem clientEvents_concat (type : EventType) (client : type.IsClientEvent)
    (events : List (Nat × LuaString)) (clientID other : LuaString) :
    clientEvents other (events ++ [(type.code, clientID)]) =
      clientEvents other events ++ if clientID = other then [type.code] else [] := by
  rw [clientEvents_append, clientEvents_singleton]
  simp only [client, and_true]

/-- An event of a client is counted among the events of that client. -/
theorem count_clientEvents (clientID : LuaString) {type : EventType} (client : type.IsClientEvent)
    (events : List (Nat × LuaString)) :
    (clientEvents clientID events).count type.code = events.count (type.code, clientID) := by
  rw [clientEvents, List.count, List.countP_map, List.countP_filter, List.count]
  refine List.countP_congr fun event _ => ?_
  have code := (isClientCode_code type).mpr client
  simp only [Function.comp, Bool.and_eq_true, beq_iff_eq, Prod.ext_iff]
  constructor
  · rintro ⟨first, second, -⟩
    exact ⟨first, second⟩
  · rintro ⟨first, second⟩
    exact ⟨first, second, first ▸ code⟩

theorem ClientTrace.of_initial {events start : List Nat} (trace : ClientTrace events)
    (before : start <+: events) : ClientTrace start := by
  rcases trace with rfl | ⟨messages, closes, once, rfl⟩
  · exact Or.inl (List.prefix_nil.mp before)
  · cases start with
    | nil => exact Or.inl rfl
    | cons code start =>
      -- A shorter trace has fewer messages, or all of them and fewer closes.
      obtain ⟨rfl, tail⟩ := List.cons_prefix_cons.mp before
      rw [List.prefix_iff_eq_take, List.take_append, List.take_replicate, List.take_replicate] at tail
      exact Or.inr ⟨_, _, Nat.le_trans (Nat.min_le_right _ _) once, by rw [tail]⟩

/-! ### The clients -/

/-- The socket of each client that is connected, according to the map. -/
def socketOf (clients : WebSocketClients) (clientID : LuaString) : Option Address :=
  (clients.lookup clientID).join

theorem socketOf_insert (clients : WebSocketClients) (clientID : LuaString)
    (websocket : Option Address) :
    socketOf (clients.insert clientID websocket) =
      Function.update (socketOf clients) clientID websocket := by
  have tables := congrArg (Option.join ∘ ·) (lookup_insert_eq clients clientID websocket)
  rwa [Function.comp_update] at tables

theorem socketOf_eq_some_iff {clients : WebSocketClients} {clientID : LuaString}
    {websocket : Address} :
    socketOf clients clientID = some websocket ↔
      clients.lookup clientID = some (some websocket) :=
  Option.join_eq_some_iff

structure Clients (clients : WebSocketClients) (sockets : Address → Option LuaString)
    (opened closed : List LuaString) (pushed : List (Nat × LuaString)) : Prop where
  valid : ∀ clientID websocket, clients.lookup clientID = some (some websocket) →
    sockets websocket = some clientID
  owned : ∀ websocket clientID, sockets websocket = some clientID →
    clients.lookup clientID = some (some websocket)
  connected : ∀ clientID, (∃ websocket, sockets websocket = some clientID) ↔
    clientID ∈ opened ∧ clientID ∉ closed
  closedOpened : ∀ clientID ∈ closed, clientID ∈ opened
  named : ∀ clientID ∈ opened, IsUuid clientID
  unopened : ∀ clientID, clientID ∉ opened → clientEvents clientID pushed = []
  trace : ∀ clientID ∈ opened, ∃ messages, clientEvents clientID pushed =
    EventType.open_.code :: (List.replicate messages EventType.message.code ++
      if clientID ∈ closed then [EventType.close.code] else [])

namespace Clients

variable {clients : WebSocketClients} {sockets : Address → Option LuaString}
  {opened closed : List LuaString} {pushed : List (Nat × LuaString)}

theorem empty : Clients ∅ (fun _ => none) [] [] [] where
  valid _ _ found := by simp at found
  owned _ _ found := by simp at found
  connected _ := by simp
  closedOpened _ member := by simp at member
  named _ member := by simp at member
  unopened _ _ := rfl
  trace _ member := by simp at member

theorem paired (held : Clients clients sockets opened closed pushed) :
    Paired (socketOf clients) sockets := fun clientID websocket => by
  rw [socketOf_eq_some_iff]
  exact ⟨held.valid clientID websocket, held.owned websocket clientID⟩

theorem clientTrace (held : Clients clients sockets opened closed pushed) (clientID : LuaString) :
    ClientTrace (clientEvents clientID pushed) := by
  by_cases begun : clientID ∈ opened
  · obtain ⟨messages, shape⟩ := held.trace clientID begun
    right
    by_cases done : clientID ∈ closed
    · exact ⟨messages, 1, Nat.le_refl 1, by rw [shape, if_pos done]; rfl⟩
    · exact ⟨messages, 0, Nat.zero_le 1, by rw [shape, if_neg done]; rfl⟩
  · exact Or.inl (held.unopened clientID begun)

/-- Events of other kinds do not concern the clients. -/
theorem other (held : Clients clients sockets opened closed pushed) {type : EventType}
    (otherKind : ¬type.IsClientEvent) (someID : LuaString) :
    Clients clients sockets opened closed (pushed ++ [(type.code, someID)]) := by
  have same : ∀ clientID, clientEvents clientID (pushed ++ [(type.code, someID)]) =
      clientEvents clientID pushed := fun clientID => by
    rw [clientEvents_append, clientEvents_singleton, if_neg (fun both => otherKind both.2),
      List.append_nil]
  exact { held with
    unopened := fun clientID unopened => by rw [same, held.unopened clientID unopened]
    trace := fun clientID begun => by rw [same]; exact held.trace clientID begun }

theorem open_ (held : Clients clients sockets opened closed pushed) {clientID : LuaString}
    {websocket : Address} (uuid : IsUuid clientID) (fresh : clientID ∉ opened)
    (free : sockets websocket = none) :
    Clients (clients.insert clientID (some websocket))
      (Function.update sockets websocket (some clientID)) (opened ++ [clientID]) closed
      (pushed ++ [(EventType.open_.code, clientID)]) := by
  -- The ID is new, so nothing has happened to it yet.
  have unclosed : clientID ∉ closed := fun member => fresh (held.closedOpened _ member)
  have events := clientEvents_concat .open_ (by decide) pushed clientID
  have missing : socketOf clients clientID = none := by
    rw [Option.eq_none_iff_forall_ne_some]
    exact fun websocket' entry =>
      fresh ((held.connected clientID).mp ⟨websocket', (held.paired clientID websocket').mp entry⟩).1
  have paired := held.paired.insert clientID websocket missing free
  have connected := paired.exists_owner
  rw [← socketOf_insert] at paired
  refine {
    valid := fun other websocket' found => (paired other websocket').mp (socketOf_eq_some_iff.mpr found)
    owned := fun websocket' other owner => socketOf_eq_some_iff.mp ((paired other websocket').mpr owner)
    connected := ?connected
    closedOpened := fun other member => List.mem_append_left _ (held.closedOpened other member)
    named := ?named
    unopened := ?unopened
    trace := ?trace }
  case connected =>
    intro other
    rw [connected, Function.update_apply, List.mem_append, List.mem_singleton]
    by_cases same : other = clientID
    · rw [if_pos same, same]
      exact iff_of_true rfl ⟨Or.inr rfl, unclosed⟩
    · rw [if_neg same, ← held.paired.exists_owner, held.connected]
      simp only [same, or_false]
  case named => exact List.forall_mem_append.mpr ⟨held.named, List.forall_mem_singleton.mpr uuid⟩
  case unopened =>
    intro other unopened
    rw [List.mem_append, List.mem_singleton, not_or] at unopened
    rw [events, held.unopened other unopened.1, if_neg (Ne.symm unopened.2), List.append_nil]
  case trace =>
    intro other begun
    rcases List.mem_append.mp begun with old | new
    · obtain ⟨messages, shape⟩ := held.trace other old
      refine ⟨messages, ?_⟩
      rw [events, if_neg (fun same : clientID = other => fresh (same ▸ old)), List.append_nil, shape]
    · rw [List.mem_singleton.mp new]
      refine ⟨0, ?_⟩
      rw [events, held.unopened _ fresh, if_pos rfl, if_neg unclosed]
      rfl

theorem message (held : Clients clients sockets opened closed pushed) {clientID : LuaString}
    {websocket : Address} (owner : sockets websocket = some clientID) :
    Clients clients sockets opened closed (pushed ++ [(EventType.message.code, clientID)]) := by
  obtain ⟨begun, unclosed⟩ := (held.connected clientID).mp ⟨websocket, owner⟩
  have events := clientEvents_concat .message (by decide) pushed clientID
  refine { held with unopened := ?_, trace := ?_ }
  · intro other unopened
    have differ : clientID ≠ other := fun same => unopened (same ▸ begun)
    rw [events, held.unopened other unopened, if_neg differ, List.append_nil]
  · intro other begun'
    obtain ⟨messages, shape⟩ := held.trace other begun'
    by_cases same : clientID = other
    · subst same
      -- The client is not closed yet, so its trace ends with the messages.
      refine ⟨messages + 1, ?_⟩
      rw [events, shape, if_pos rfl, if_neg unclosed, List.replicate_succ']
      simp
    · exact ⟨messages, by rw [events, shape, if_neg same, List.append_nil]⟩

theorem close (held : Clients clients sockets opened closed pushed) {clientID : LuaString}
    {websocket : Address} (owner : sockets websocket = some clientID) :
    Clients (clients.insert clientID none) (Function.update sockets websocket none) opened
      (closed ++ [clientID]) (pushed ++ [(EventType.close.code, clientID)]) := by
  obtain ⟨begun, unclosed⟩ := (held.connected clientID).mp ⟨websocket, owner⟩
  have events := clientEvents_concat .close (by decide) pushed clientID
  have paired := held.paired.erase ((held.paired clientID websocket).mpr owner)
  have connected := paired.exists_owner
  rw [← socketOf_insert] at paired
  refine {
    valid := fun other websocket' found => (paired other websocket').mp (socketOf_eq_some_iff.mpr found)
    owned := fun websocket' other owner => socketOf_eq_some_iff.mp ((paired other websocket').mpr owner)
    connected := ?connected
    closedOpened := ?closedOpened
    named := held.named
    unopened := ?unopened
    trace := ?trace }
  case connected =>
    intro other
    rw [connected, Function.update_apply, List.mem_append, List.mem_singleton, not_or]
    by_cases same : other = clientID
    · rw [if_pos same]
      exact iff_of_false Bool.false_ne_true fun rest => rest.2.2 same
    · rw [if_neg same, ← held.paired.exists_owner, held.connected]
      simp only [same, not_false_eq_true, and_true]
  case closedOpened =>
    exact List.forall_mem_append.mpr ⟨held.closedOpened, List.forall_mem_singleton.mpr begun⟩
  case unopened =>
    intro other unopened
    have differ : clientID ≠ other := fun same => unopened (same ▸ begun)
    rw [events, held.unopened other unopened, if_neg differ, List.append_nil]
  case trace =>
    intro other begun'
    obtain ⟨messages, shape⟩ := held.trace other begun'
    refine ⟨messages, ?_⟩
    by_cases same : clientID = other
    · subst same
      rw [events, shape, if_pos rfl, if_neg unclosed, if_pos (by simp)]
      simp
    · rw [events, shape, if_neg same, List.append_nil]
      simp [Ne.symm same]

/-- Without connections the map may be cleared. -/
theorem clear (held : Clients clients sockets opened closed pushed)
    (faded : ∀ clientID websocket, clients.lookup clientID ≠ some (some websocket)) :
    Clients ∅ sockets opened closed pushed :=
  { held with
    valid := fun _ _ found => by simp at found
    owned := fun websocket clientID owner => absurd (held.owned websocket clientID owner) (faded _ _) }

/-- Entries that are null may be erased. -/
theorem purge (held : Clients clients sockets opened closed pushed) {clients' : WebSocketClients}
    (kept : ∀ clientID websocket, clients'.lookup clientID = some (some websocket) ↔
      clients.lookup clientID = some (some websocket)) :
    Clients clients' sockets opened closed pushed :=
  { held with
    valid := fun clientID websocket found => held.valid clientID websocket ((kept _ _).mp found)
    owned := fun websocket clientID owner => (kept _ _).mpr (held.owned websocket clientID owner) }

end Clients

/-! ### The queue -/

/-- Names that survive the copy to the buffer of an event. -/
def IsCopied (clientID : LuaString) : Prop := 0 ∉ clientID ∧ clientID.length < 37

theorem IsUuid.isCopied {text : LuaString} (uuid : IsUuid text) : IsCopied text :=
  ⟨uuid.2, by rw [uuid.1]; decide⟩

structure Fifo (queue : List DeferredEvent) (pushed popped : List (Nat × LuaString)) : Prop where
  order : popped ++ queue.map DeferredEvent.key = pushed
  copied : ∀ event ∈ queue, IsCopied event.clientID

namespace Fifo

variable {queue : List DeferredEvent} {pushed popped : List (Nat × LuaString)}

theorem push (held : Fifo queue pushed popped) (event : DeferredEvent)
    (copied : IsCopied event.clientID) :
    Fifo (queue ++ [event]) (pushed ++ [event.key]) popped := by
  refine ⟨?_, List.forall_mem_append.mpr ⟨held.copied, List.forall_mem_singleton.mpr copied⟩⟩
  rw [List.map_append, ← List.append_assoc, held.order]
  rfl

theorem pop {event : DeferredEvent} (held : Fifo (event :: queue) pushed popped) :
    Fifo queue pushed (popped ++ [event.key]) :=
  ⟨by rw [← held.order]; simp, fun event' member =>
    held.copied event' (List.mem_cons_of_mem _ member)⟩

end Fifo

/-- Lua reads the type and the ID of the event from the buffer that was filled. -/
theorem key_fill (payload : LuaString) (maxPayloadSize : UInt64) {event : DeferredEvent}
    (copied : IsCopied event.clientID) :
    (EventBuffer.fill payload maxPayloadSize event).key = event.key :=
  congrArg (event.type.code, ·) (cString_copyCString copied.1 copied.2)

end EvoRuntime.Server
