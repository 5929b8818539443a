import EvoRuntime.Library.Mailboxes
import EvoRuntime.Library.Simulations
import EvoRuntime.Server.DeferredPayload
import EvoRuntime.Server.StepHistory

/-!
# Messages to WebSocket clients

`Messaging` adds to the world of the server the frames that its sockets were given to
send. What `send` returns is a parameter, since it depends on the peer. A message can be
broadcast, sent to one client, or echoed, in any order with everything else that happens
to the server.

## Main result

The server is a hub with mailboxes: in every run each client gets what is broadcast or
sent to it while it is connected, once and in order, and nothing before or afterwards.

## Proof strategy

The members of the hub are the clients that were opened and not closed. Each step is
shown to be one event of the hub, or none, and `Simulates.run` does the rest.
-/
namespace EvoRuntime.Server

open Lua Library

/-- `uWS::OpCode`, as far as messages are sent with it. -/
inductive OpCode where
  | text
  | binary
  deriving DecidableEq

/-- What `websocket->send` is called with. -/
structure Frame where
  opCode : OpCode
  compress : Bool
  message : LuaString
  deriving DecidableEq

/-- `WebSocket::SendStatus`. -/
inductive SendStatus where
  | backpressure
  | success
  | dropped
  deriving DecidableEq

structure Messaging where
  world : World := {}
  /-- The frames that sockets were given, with the clients that own the sockets. -/
  sent : List (LuaString × Frame) := []

/-- A client that is unknown or has faded has a null pointer. -/
def World.findClientByID (w : World) (clientID : LuaString) : Option Address :=
  match w.server.websocketClientsMap.lookup clientID with
  | none => none
  | some websocket => websocket

namespace Messaging

/-- `websocket->send(message, opCode, compress)`, which needs the socket to be open. -/
def send (m : Messaging) (websocket : Address) (frame : Frame) : Except Fault Messaging :=
  match m.world.sockets websocket with
  | none => .error .invalidSocket
  | some clientID => .ok { m with sent := m.sent ++ [(clientID, frame)] }

/-- The loop of the broadcasts. Clients that have faded are skipped. -/
def broadcastEach (frame : Frame) (statusOf : Address → SendStatus) :
    List LuaString → SendStatus → Messaging → Except Fault (SendStatus × Messaging)
  | [], status, m => .ok (status, m)
  | clientID :: order, status, m =>
    match m.world.server.websocketClientsMap.lookup clientID with
    | some (some websocket) => do
      let m ← m.send websocket frame
      let currentStatus := statusOf websocket
      broadcastEach frame statusOf order (if currentStatus = .dropped then .dropped else status) m
    | _ => broadcastEach frame statusOf order status m

/-- `order` lists the keys of the map in the order in which it is iterated. -/
def broadcast (m : Messaging) (frame : Frame) (statusOf : Address → SendStatus)
    (order : List LuaString) : Except Fault (SendStatus × Messaging) :=
  broadcastEach frame statusOf order .success m

def broadcastTextMessage (m : Messaging) (message : LuaString) :=
  m.broadcast ⟨.text, false, message⟩

def broadcastBinaryMessage (m : Messaging) (message : LuaString) :=
  m.broadcast ⟨.binary, false, message⟩

def broadcastCompressedTextMessage (m : Messaging) (message : LuaString) :=
  m.broadcast ⟨.text, true, message⟩

def sendToClient (m : Messaging) (frame : Frame) (statusOf : Address → SendStatus)
    (clientID : LuaString) : Except Fault (SendStatus × Messaging) :=
  match m.world.findClientByID clientID with
  | none => .ok (.dropped, m)
  | some websocket => do
    let m ← m.send websocket frame
    return (statusOf websocket, m)

/-- `uws_webserver_send_text`: the ID is read as a C string. -/
def sendTextMessageToClient (m : Messaging) (statusOf : Address → SendStatus)
    (message clientID : LuaString) :=
  m.sendToClient ⟨.text, false, message⟩ statusOf (cString clientID)

def sendBinaryMessageToClient (m : Messaging) (statusOf : Address → SendStatus)
    (message clientID : LuaString) :=
  m.sendToClient ⟨.binary, false, message⟩ statusOf (cString clientID)

def sendCompressedTextMessageToClient (m : Messaging) (statusOf : Address → SendStatus)
    (message clientID : LuaString) :=
  m.sendToClient ⟨.text, true, message⟩ statusOf (cString clientID)

/-- `OnWebSocketMessage` with its echo. -/
def onWebSocketMessage (m : Messaging) (websocket : Address) (opCode : OpCode)
    (message : LuaString) : Except Fault Messaging := do
  let world ← m.world.onWebSocketMessage websocket message
  let m := { m with world }
  if world.server.isEchoServer then m.send websocket ⟨opCode, false, message⟩ else return m

end Messaging

/-! ### Runs -/

inductive MessageKind where
  | text
  | binary
  | compressed
  deriving DecidableEq

def MessageKind.frame : MessageKind → LuaString → Frame
  | text, message => ⟨.text, false, message⟩
  | binary, message => ⟨.binary, false, message⟩
  | compressed, message => ⟨.text, true, message⟩

inductive MessagingAction where
  | server (action : Action)
  | webSocketMessage (websocket : Address) (opCode : OpCode) (message : LuaString)
  | broadcast (kind : MessageKind) (message : LuaString) (statusOf : Address → SendStatus)
      (order : List LuaString)
  | sendToClient (kind : MessageKind) (message : LuaString) (statusOf : Address → SendStatus)
      (clientID : LuaString)

/-- Messages that arrive have an action of their own, because of the echo. -/
def MessagingEnabled (m : Messaging) : MessagingAction → Prop
  | .server (.webSocketMessage _ _) => False
  | .server action => Enabled m.world action
  | .webSocketMessage websocket _ _ => (m.world.sockets websocket).isSome
  | .broadcast _ _ _ order => order.Perm m.world.server.websocketClientsMap.keys
  | .sendToClient _ _ _ _ => True

def Messaging.broadcastOf (m : Messaging) (kind : MessageKind) (message : LuaString) :
    (Address → SendStatus) → List LuaString → Except Fault (SendStatus × Messaging) :=
  match kind with
  | .text => m.broadcastTextMessage message
  | .binary => m.broadcastBinaryMessage message
  | .compressed => m.broadcastCompressedTextMessage message

def Messaging.sendOf (m : Messaging) (kind : MessageKind) (statusOf : Address → SendStatus)
    (message clientID : LuaString) : Except Fault (SendStatus × Messaging) :=
  match kind with
  | .text => m.sendTextMessageToClient statusOf message clientID
  | .binary => m.sendBinaryMessageToClient statusOf message clientID
  | .compressed => m.sendCompressedTextMessageToClient statusOf message clientID

def messagingStep (m : Messaging) : MessagingAction → Except Fault Messaging
  | .server action => return { m with world := ← step m.world action }
  | .webSocketMessage websocket opCode message => m.onWebSocketMessage websocket opCode message
  | .broadcast kind message statusOf order =>
    return (← m.broadcastOf kind message statusOf order).2
  | .sendToClient kind message statusOf clientID =>
    return (← m.sendOf kind statusOf message clientID).2

def messaging : System Messaging MessagingAction Fault where
  Initial m := ∃ maxPayloadSize, m = { world := { server := { maxPayloadSize } } }
  Enabled := MessagingEnabled
  step := messagingStep

/-! ### Steps that do not concern clients -/

/-- No client was opened or closed in between. -/
structure SameClients (w w' : World) : Prop where
  opened : w'.history.opened = w.history.opened
  closed : w'.history.closed = w.history.closed

theorem SameClients.refl (w : World) : SameClients w w := ⟨rfl, rfl⟩

/-! ### The hub -/

/-- The clients that are connected are the members, and what their sockets were given to
send is their mail. -/
def Messaging.hub (m : Messaging) : Hub LuaString Frame where
  members := {clientID | clientID ∈ m.world.history.opened ∧ clientID ∉ m.world.history.closed}
  mailbox clientID := (m.sent.filter (·.1 = clientID)).map Prod.snd

/-- What a step means to the hub. -/
def Messaging.events (m : Messaging) : MessagingAction → List (HubEvent LuaString Frame)
  | .server (.webSocketOpen _ clientID) => [.join clientID]
  | .server (.webSocketClose websocket _) => ((m.world.sockets websocket).map .leave).toList
  | .server (.stopListening _ _) =>
    if m.world.server.usListenSocket.isSome then [.leaveAll] else []
  | .server _ => []
  | .webSocketMessage websocket opCode message =>
    if m.world.server.isEchoServer then
      ((m.world.sockets websocket).map (.tell · ⟨opCode, false, message⟩)).toList
    else []
  | .broadcast kind message _ _ => [.announce (kind.frame message)]
  | .sendToClient kind message _ clientID => [.tell (cString clientID) (kind.frame message)]

theorem broadcastOf_eq (m : Messaging) (kind : MessageKind) (message : LuaString) :
    m.broadcastOf kind message = m.broadcast (kind.frame message) := by
  cases kind <;> rfl

theorem sendOf_eq (m : Messaging) (kind : MessageKind) (statusOf : Address → SendStatus)
    (message clientID : LuaString) :
    m.sendOf kind statusOf message clientID =
      m.sendToClient (kind.frame message) statusOf (cString clientID) := by
  cases kind <;> rfl

theorem findClientByID_eq (w : World) (clientID : LuaString) :
    w.findClientByID clientID = socketOf w.server.websocketClientsMap clientID := by
  unfold World.findClientByID socketOf
  cases w.server.websocketClientsMap.lookup clientID <;> rfl

namespace Inv

variable {w : World}

theorem findClientByID_iff (inv : Inv w) (clientID : LuaString) (websocket : Address) :
    w.findClientByID clientID = some websocket ↔ w.sockets websocket = some clientID := by
  rw [findClientByID_eq]
  exact inv.clients.paired clientID websocket

/-- A client is found if and only if it is connected. -/
theorem found_iff (inv : Inv w) (clientID : LuaString) :
    (w.findClientByID clientID).isSome ↔
      clientID ∈ w.history.opened ∧ clientID ∉ w.history.closed := by
  rw [Option.isSome_iff_exists, ← inv.clients.connected]
  exact exists_congr (inv.findClientByID_iff clientID)

end Inv

/-! ### Sends -/

/-- The listed clients that are connected. -/
def World.recipients (w : World) (order : List LuaString) : List LuaString :=
  order.filter fun clientID => (w.findClientByID clientID).isSome

def Messaging.afterBroadcast (m : Messaging) (frame : Frame) (order : List LuaString) : Messaging :=
  { m with sent := m.sent ++ (m.world.recipients order).map (·, frame) }

theorem mail_append (clientID : LuaString) (xs ys : List (LuaString × Frame)) :
    ((xs ++ ys).filter (·.1 = clientID)).map Prod.snd =
      (xs.filter (·.1 = clientID)).map Prod.snd ++ (ys.filter (·.1 = clientID)).map Prod.snd := by
  rw [List.filter_append, List.map_append]

/-- One frame for each of some clients is one frame for those that are among them. -/
theorem mail_each {clients : List LuaString} (distinct : clients.Nodup) (frame : Frame)
    (clientID : LuaString) :
    ((clients.map (·, frame)).filter (·.1 = clientID)).map Prod.snd =
      if clientID ∈ clients then [frame] else [] := by
  have same : ((clients.map (·, frame)).filter (·.1 = clientID)).map Prod.snd =
      List.replicate (clients.count clientID) frame := by
    rw [List.filter_map, List.map_map]
    simp only [Function.comp_def, List.map_const', List.count_eq_length_filter, beq_eq_decide]
  rw [same, distinct.count]
  split <;> rfl

namespace Inv

variable {m : Messaging}

theorem send (inv : Inv m.world) {clientID : LuaString} {websocket : Address}
    (found : m.world.findClientByID clientID = some websocket) (frame : Frame) :
    m.send websocket frame = .ok { m with sent := m.sent ++ [(clientID, frame)] } := by
  unfold Messaging.send
  rw [(inv.findClientByID_iff clientID websocket).mp found]

/-- One round of the loop. -/
theorem broadcastEach_cons (inv : Inv m.world) (frame : Frame) (statusOf : Address → SendStatus)
    (clientID : LuaString) (order : List LuaString) (status : SendStatus) :
    Messaging.broadcastEach frame statusOf (clientID :: order) status m =
      match m.world.findClientByID clientID with
      | none => Messaging.broadcastEach frame statusOf order status m
      | some websocket =>
        Messaging.broadcastEach frame statusOf order
          (if statusOf websocket = .dropped then .dropped else status)
          { m with sent := m.sent ++ [(clientID, frame)] } := by
  rw [Messaging.broadcastEach]
  cases entry : m.world.server.websocketClientsMap.lookup clientID with
  | none => simp only [World.findClientByID, entry]
  | some socket =>
    cases socket with
    | none => simp only [World.findClientByID, entry]
    | some websocket =>
      have found : m.world.findClientByID clientID = some websocket := by
        rw [World.findClientByID, entry]
      simp only [found, inv.send found frame, bind, Except.bind]

/-- The loop sends one frame to each client that is connected, and remembers whether one
was dropped. -/
theorem broadcastEach (frame : Frame) (statusOf : Address → SendStatus) (order : List LuaString)
    (status : SendStatus) (m : Messaging) (inv : Inv m.world) :
    ∃ status', Messaging.broadcastEach frame statusOf order status m =
        .ok (status', m.afterBroadcast frame order) ∧
      ((∃ clientID ∈ order, ∃ websocket, m.world.findClientByID clientID = some websocket ∧
          statusOf websocket = .dropped) → status' = .dropped) ∧
      ((¬ ∃ clientID ∈ order, ∃ websocket, m.world.findClientByID clientID = some websocket ∧
          statusOf websocket = .dropped) → status' = status) := by
  induction order generalizing status m with
  | nil =>
    refine ⟨status, ?_, by simp, fun _ => rfl⟩
    simp [Messaging.broadcastEach, Messaging.afterBroadcast, World.recipients]
  | cons clientID order ih =>
    rw [inv.broadcastEach_cons]
    cases found : m.world.findClientByID clientID with
    | none =>
      obtain ⟨status', run, dropped, kept⟩ := ih status m inv
      refine ⟨status', ?_, ?_, ?_⟩
      · rw [Messaging.afterBroadcast, World.recipients,
          List.filter_cons_of_neg (by rw [found]; decide)]
        exact run
      · simpa [found] using dropped
      · simpa [found] using kept
    | some websocket =>
      obtain ⟨status', run, dropped, kept⟩ :=
        ih (if statusOf websocket = .dropped then .dropped else status)
          { m with sent := m.sent ++ [(clientID, frame)] } inv
      refine ⟨status', ?_, ?_, ?_⟩
      · rw [Messaging.afterBroadcast, World.recipients,
          List.filter_cons_of_pos (by rw [found]; rfl)]
        refine run.trans ?_
        simp only [Messaging.afterBroadcast, World.recipients, List.map_cons, List.append_assoc,
          List.singleton_append]
      · rintro ⟨other, member, socket, entry, lost⟩
        by_cases later : ∃ clientID ∈ order, ∃ websocket,
            m.world.findClientByID clientID = some websocket ∧ statusOf websocket = .dropped
        · exact dropped later
        · -- it was dropped in this round, so that later rounds keep the status
          rcases List.mem_cons.mp member with rfl | rest
          · obtain rfl := Option.some.inj (found.symm.trans entry)
            rw [kept later, if_pos lost]
          · exact absurd ⟨other, rest, socket, entry, lost⟩ later
      · intro none
        rw [kept fun ⟨other, rest, lost⟩ => none ⟨other, List.mem_cons_of_mem _ rest, lost⟩,
          if_neg fun lost => none ⟨clientID, List.mem_cons_self, websocket, found, lost⟩]

end Inv

/-! ### Steps -/

theorem onWebSocketMessage_echo {m : Messaging} {websocket : Address} {clientID : LuaString}
    (owner : m.world.sockets websocket = some clientID) (opCode : OpCode) (message : LuaString) :
    m.onWebSocketMessage websocket opCode message =
      .ok ⟨m.world.emplace .message clientID message,
        m.sent ++ if m.world.server.isEchoServer then [(clientID, ⟨opCode, false, message⟩)]
          else []⟩ := by
  unfold Messaging.onWebSocketMessage
  rw [onWebSocketMessage_queue owner message]
  simp only [bind, Except.bind, pure, Except.pure, World.emplace, Messaging.send, owner]
  split
  · rfl
  · rw [List.append_nil]

namespace Inv

variable {m : Messaging}

theorem sendToClient (inv : Inv m.world) (frame : Frame) (statusOf : Address → SendStatus)
    (clientID : LuaString) :
    m.sendToClient frame statusOf clientID =
      match m.world.findClientByID clientID with
      | none => .ok (.dropped, m)
      | some websocket => .ok (statusOf websocket, { m with sent := m.sent ++ [(clientID, frame)] }) := by
  unfold Messaging.sendToClient
  cases found : m.world.findClientByID clientID with
  | none => rfl
  | some websocket =>
    simp only [inv.send found frame, bind, Except.bind]
    rfl

theorem messagingStep (inv : Inv m.world) (action : MessagingAction)
    (enabled : MessagingEnabled m action) :
    ∃ m', messagingStep m action = .ok m' ∧ Inv m'.world := by
  cases action with
  | server action =>
    have told : Enabled m.world action := by
      cases action <;> first | exact enabled | exact enabled.elim
    obtain ⟨w', run, inv'⟩ := inv.step action told
    refine ⟨{ m with world := w' }, ?_, inv'⟩
    simp only [EvoRuntime.Server.messagingStep, run, bind, Except.bind, pure, Except.pure]
  | webSocketMessage websocket opCode message =>
    obtain ⟨clientID, owner⟩ := Option.isSome_iff_exists.mp enabled
    obtain ⟨w', run, inv'⟩ := inv.onWebSocketMessage enabled message
    refine ⟨_, onWebSocketMessage_echo owner opCode message, ?_⟩
    rw [onWebSocketMessage_queue owner message] at run
    obtain rfl := Except.ok.inj run
    exact inv'
  | broadcast kind message statusOf order =>
    obtain ⟨status, run, -⟩ := inv.broadcastEach (kind.frame message) statusOf order .success m
    refine ⟨m.afterBroadcast (kind.frame message) order, ?_, inv⟩
    simp only [EvoRuntime.Server.messagingStep, broadcastOf_eq, Messaging.broadcast, run, bind,
      Except.bind, pure, Except.pure]
  | sendToClient kind message statusOf clientID =>
    simp only [EvoRuntime.Server.messagingStep, sendOf_eq, inv.sendToClient]
    cases m.world.findClientByID (cString clientID) with
    | none => exact ⟨m, rfl, inv⟩
    | some websocket => exact ⟨_, rfl, inv⟩

end Inv

theorem messaging_inductive : messaging.Inductive fun m => Inv m.world where
  initial m := by
    rintro ⟨maxPayloadSize, rfl⟩
    exact Inv.initial maxPayloadSize
  preserved _ action inv enabled := Inv.messagingStep inv action enabled

/-- Other actions open and close no clients. -/
theorem SameClients.step {w w' : World} (inv : Inv w) {action : Action} (enabled : Enabled w action)
    (stepped : step w action = .ok w')
    (opens : ∀ websocket clientID, action ≠ .webSocketOpen websocket clientID)
    (closes : ∀ websocket message, action ≠ .webSocketClose websocket message)
    (stops : ∀ clients requests, action ≠ .stopListening clients requests) : SameClients w w' := by
  have known : ∀ requestID gains, gains.opened = [] ∧ gains.closed = [] →
      (w.ifKnown requestID gains).opened = [] ∧ (w.ifKnown requestID gains).closed = [] := by
    intro requestID gains silent
    unfold World.ifKnown
    split
    · exact silent
    · exact ⟨rfl, rfl⟩
  have silent : (w.gains action).opened = [] ∧ (w.gains action).closed = [] := by
    cases action with
    | abort response =>
      rw [World.gains]
      cases w.responses response <;> exact ⟨rfl, rfl⟩
    | writeResponse requestID data outcome =>
      refine known requestID _ ?_
      split <;> exact ⟨rfl, rfl⟩
    | tryEndResponse requestID data outcome =>
      refine known requestID _ ?_
      cases outcome <;> exact ⟨rfl, rfl⟩
    | endResponse requestID data => exact known requestID _ ⟨rfl, rfl⟩
    | writeResponseStatus requestID statusCodeAndText => exact known requestID _ ⟨rfl, rfl⟩
    | writeResponseHeader requestID key value => exact known requestID _ ⟨rfl, rfl⟩
    | webSocketOpen websocket clientID => exact absurd rfl (opens websocket clientID)
    | webSocketClose websocket message => exact absurd rfl (closes websocket message)
    | stopListening clients requests => exact absurd rfl (stops clients requests)
    | _ => exact ⟨rfl, rfl⟩
  have gained := history_step inv enabled stepped
  constructor
  · rw [gained]
    exact (congrArg (w.history.opened ++ ·) silent.1).trans (List.append_nil _)
  · rw [gained]
    exact (congrArg (w.history.closed ++ ·) silent.2).trans (List.append_nil _)

/-! ### The steps of the hub -/

theorem hub_same {m : Messaging} {w' : World} (same : SameClients m.world w') :
    Messaging.hub { m with world := w' } = m.hub := by
  simp only [Messaging.hub, same.opened, same.closed]

theorem hub_mail {m : Messaging} {w' : World} (same : SameClients m.world w')
    (event : HubEvent LuaString Frame) (more : List (LuaString × Frame))
    (silent : Hub.membersAfter m.hub.members event = m.hub.members)
    (mail : ∀ clientID, (more.filter (·.1 = clientID)).map Prod.snd =
      Hub.mailOf m.hub.members event clientID) :
    Messaging.hub ⟨w', m.sent ++ more⟩ = m.hub.after event := by
  refine Hub.ext ?_ (funext fun clientID => ?_)
  · rw [Hub.after, silent]
    simp only [Messaging.hub, same.opened, same.closed]
  · exact (mail_append clientID m.sent more).trans
      (congrArg (m.hub.mailbox clientID ++ ·) (mail clientID))

/-- A server that was listening has closed every client when it stops. -/
theorem stopListening_closed {w w' : World} (inv : Inv w) {clients requests : List LuaString}
    (enabled : Enabled w (.stopListening clients requests))
    (listening : w.server.usListenSocket.isSome)
    (stepped : w.stopListening clients requests = .ok w') :
    ∀ clientID ∈ w'.history.opened, clientID ∈ w'.history.closed := by
  have gained := inv.history_stopListening enabled stepped
  rw [World.gains, if_pos listening] at gained
  have opened : w'.history.opened = w.history.opened := by
    rw [gained]
    exact List.append_nil _
  have closed : w'.history.closed = w.history.closed ++ w.connected clients := by
    rw [gained]
    exact congrArg (w.history.closed ++ ·) ((List.append_nil _).trans (List.append_nil _))
  intro clientID begun
  rw [opened] at begun
  rw [closed, List.mem_append]
  -- a client that was not closed before has a socket, and is listed
  by_cases before : clientID ∈ w.history.closed
  · exact Or.inl before
  · obtain ⟨websocket, owner⟩ := (inv.clients.connected clientID).mpr ⟨begun, before⟩
    have entry := inv.clients.owned websocket clientID owner
    have listed : clientID ∈ clients := enabled.1.mem_iff.mpr
      (AList.mem_keys.mp (AList.lookup_isSome.mp (by rw [entry]; rfl)))
    refine Or.inr (List.mem_filter.mpr ⟨listed, ?_⟩)
    rw [socketOf_eq_some_iff.mpr entry]
    rfl

/-- The world after a socket was closed. -/
def onWebSocketClosed (w : World) (websocket : Address) (clientID message : LuaString) : World :=
  World.onWebSocketClose
    { w with
      sockets := Function.update w.sockets websocket none
      history.closed := w.history.closed ++ [clientID] }
    clientID message

/-- Clients join when they are opened, and leave when they are closed. -/
theorem hub_server {m : Messaging} (inv : Inv m.world) {action : Action} {w' : World}
    (enabled : Enabled m.world action) (arrives : ∀ websocket message,
      action ≠ .webSocketMessage websocket message) (stepped : step m.world action = .ok w') :
    Messaging.hub { m with world := w' } = (m.events (.server action)).foldl Hub.after m.hub := by
  cases action with
  | webSocketOpen websocket clientID =>
    cases stepped
    have unclosed : clientID ∉ m.world.history.closed := fun closed =>
      enabled.2.1 (inv.clients.closedOpened clientID closed)
    rw [show m.events (.server (.webSocketOpen websocket clientID)) = [.join clientID] from rfl,
      List.foldl_cons, Hub.after_eq (fun _ => rfl)]
    refine Hub.ext (Set.ext fun other => ?_) rfl
    change other ∈ m.world.history.opened ++ [clientID] ∧ other ∉ m.world.history.closed ↔
      other = clientID ∨ other ∈ m.world.history.opened ∧ other ∉ m.world.history.closed
    rw [List.mem_append, List.mem_singleton, or_and_right, or_comm]
    refine or_congr_left (and_iff_left_of_imp ?_)
    rintro rfl
    exact unclosed
  | webSocketClose websocket message =>
    obtain ⟨clientID, owner⟩ := Option.isSome_iff_exists.mp enabled
    have meant : m.events (.server (.webSocketClose websocket message)) = [.leave clientID] := by
      simp only [Messaging.events, owner, Option.map_some, Option.toList_some]
    obtain rfl : onWebSocketClosed m.world websocket clientID message = w' := by
      rw [show step m.world (.webSocketClose websocket message) =
        m.world.closeSocket websocket message from rfl, World.closeSocket, owner] at stepped
      exact Except.ok.inj stepped
    rw [meant, List.foldl_cons, Hub.after_eq (fun _ => rfl)]
    refine Hub.ext (Set.ext fun other => ?_) rfl
    change other ∈ m.world.history.opened ∧ other ∉ m.world.history.closed ++ [clientID] ↔
      (other ∈ m.world.history.opened ∧ other ∉ m.world.history.closed) ∧ other ≠ clientID
    rw [List.mem_append, List.mem_singleton, not_or, and_assoc]
  | stopListening clients requests =>
    cases listening : m.world.server.usListenSocket with
    | none =>
      rw [show step m.world (.stopListening clients requests) =
        m.world.stopListening clients requests from rfl, World.stopListening, listening] at stepped
      cases stepped
      rw [show m.events (.server (.stopListening clients requests)) = [] by
        simp only [Messaging.events, listening, Option.isSome_none, Bool.false_eq_true, if_false]]
      rfl
    | some socket =>
      have meant : m.events (.server (.stopListening clients requests)) = [.leaveAll] := by
        simp only [Messaging.events, listening, Option.isSome_some, if_true]
      have closed := stopListening_closed inv enabled (by rw [listening]; rfl) stepped
      rw [meant, List.foldl_cons, Hub.after_eq (fun _ => rfl)]
      refine Hub.ext (Set.ext fun other => ?_) rfl
      exact iff_of_false (fun both => both.2 (closed other both.1)) (Set.notMem_empty other)
  | webSocketMessage websocket message => exact absurd rfl (arrives websocket message)
  | _ =>
    refine hub_same (SameClients.step inv enabled stepped ?_ ?_ ?_) <;> intros <;> simp

/-- The recipients of a broadcast are the clients that are connected. -/
theorem recipients_iff {w : World} (inv : Inv w) {order : List LuaString}
    (all : order.Perm w.server.websocketClientsMap.keys) (clientID : LuaString) :
    clientID ∈ w.recipients order ↔
      clientID ∈ w.history.opened ∧ clientID ∉ w.history.closed := by
  rw [World.recipients, List.mem_filter, inv.found_iff clientID]
  refine and_iff_right_of_imp fun member => all.mem_iff.mpr ?_
  obtain ⟨websocket, owner⟩ := (inv.clients.connected clientID).mpr member
  exact AList.mem_keys.mp (AList.lookup_isSome.mp (by rw [inv.clients.owned _ _ owner]; rfl))

/-- A frame for one client is mail for this member. -/
theorem mail_one {members : Set LuaString} {clientID : LuaString} (joined : clientID ∈ members)
    (frame : Frame) (other : LuaString) :
    ([(clientID, frame)].filter (·.1 = other)).map Prod.snd =
      Hub.mailOf members (.tell clientID frame) other := by
  by_cases self : clientID = other
  · subst self
    rw [Hub.mailOf_tell joined]
    simp
  · rw [Hub.mailOf_tell_other self]
    simp [self]

/-- Messages reach the members. -/
theorem messaging_simulates :
    messaging.Simulates (fun m => Inv m.world) Messaging.hub Messaging.events Hub.after := by
  intro m action m' inv enabled stepped
  cases action with
  | server action =>
    obtain ⟨w', ran, rest⟩ := bind_ok stepped
    cases rest
    have arrives : ∀ websocket message, action ≠ .webSocketMessage websocket message := by
      rintro websocket message rfl
      exact enabled
    have told : Enabled m.world action := by
      cases action <;> first | exact enabled | exact enabled.elim
    exact hub_server inv told arrives ran
  | webSocketMessage websocket opCode message =>
    obtain ⟨clientID, owner⟩ := Option.isSome_iff_exists.mp enabled
    obtain rfl := Except.ok.inj ((onWebSocketMessage_echo owner opCode message).symm.trans stepped)
    have same : SameClients m.world (m.world.emplace .message clientID message) := ⟨rfl, rfl⟩
    simp only [Messaging.events, owner]
    split
    · -- the echo goes to the client itself, which is a member
      exact hub_mail same (.tell clientID ⟨opCode, false, message⟩) _ rfl
        (mail_one ((inv.clients.connected clientID).mp ⟨websocket, owner⟩) _)
    · rw [List.append_nil]
      exact hub_same same
  | broadcast kind message statusOf order =>
    obtain ⟨status, run, -⟩ := inv.broadcastEach (kind.frame message) statusOf order .success m
    obtain rfl : m.afterBroadcast (kind.frame message) order = m' := by
      obtain ⟨reply, ran, rest⟩ := bind_ok stepped
      rw [broadcastOf_eq, Messaging.broadcast, run] at ran
      cases ran
      exact Except.ok.inj rest
    have distinct : order.Nodup :=
      enabled.nodup_iff.mpr m.world.server.websocketClientsMap.keys_nodup
    refine hub_mail (SameClients.refl m.world) (.announce (kind.frame message)) _ rfl fun other => ?_
    rw [World.recipients, mail_each (distinct.filter _)]
    have listed := recipients_iff inv enabled other
    by_cases member : other ∈ m.hub.members
    · rw [Hub.mailOf_announce member]
      exact if_pos (listed.mpr member)
    · rw [Hub.mailOf_absent member]
      exact if_neg fun recipient => member (listed.mp recipient)
  | sendToClient kind message statusOf clientID =>
    obtain ⟨reply, ran, rest⟩ := bind_ok stepped
    rw [sendOf_eq, inv.sendToClient] at ran
    have member := inv.found_iff (cString clientID)
    cases rest
    cases found : m.world.findClientByID (cString clientID) with
    | none =>
      rw [found] at ran member
      cases ran
      have absent : cString clientID ∉ m.hub.members := fun joined =>
        Bool.false_ne_true (member.mpr joined)
      refine Eq.symm (Hub.after_eq fun other => ?_)
      by_cases self : cString clientID = other
      · exact Hub.mailOf_absent (self ▸ absent) _
      · exact Hub.mailOf_tell_other self _
    | some websocket =>
      rw [found] at ran member
      cases ran
      exact hub_mail (SameClients.refl m.world) (.tell (cString clientID) (kind.frame message)) _
        rfl (mail_one (member.mp rfl) _)

theorem opened_step {w w' : World} (inv : Inv w) {action : Action} (enabled : Enabled w action)
    (stepped : step w action = .ok w') {clientID : LuaString} (begun : clientID ∈ w.history.opened) :
    clientID ∈ w'.history.opened := by
  rw [history_step inv enabled stepped]
  exact List.mem_append_left _ begun

/-- A client that has been opened stays one of those that were, and does not join again. -/
theorem opened_messagingStep {m m' : Messaging} (inv : Inv m.world) {action : MessagingAction}
    (enabled : MessagingEnabled m action) (stepped : messagingStep m action = .ok m')
    {clientID : LuaString} (begun : clientID ∈ m.world.history.opened) :
    clientID ∈ m'.world.history.opened ∧ HubEvent.join clientID ∉ m.events action := by
  cases action with
  | server action =>
    obtain ⟨w', ran, rest⟩ := bind_ok stepped
    cases rest
    have told : Enabled m.world action := by
      cases action <;> first | exact enabled | exact enabled.elim
    refine ⟨opened_step inv told ran begun, ?_⟩
    cases action with
    | webSocketOpen websocket other =>
      refine mt List.mem_singleton.mp fun same => enabled.2.1 ?_
      exact HubEvent.join.inj same ▸ begun
    | webSocketClose websocket message => simp [Messaging.events]
    | stopListening clients requests =>
      simp only [Messaging.events]
      split <;> simp
    | _ => exact List.not_mem_nil
  | webSocketMessage websocket opCode message =>
    obtain ⟨other, owner⟩ := Option.isSome_iff_exists.mp enabled
    obtain rfl := Except.ok.inj ((onWebSocketMessage_echo owner opCode message).symm.trans stepped)
    refine ⟨begun, ?_⟩
    simp only [Messaging.events]
    split <;> simp
  | broadcast kind message statusOf order =>
    obtain ⟨status, run, -⟩ := inv.broadcastEach (kind.frame message) statusOf order .success m
    obtain ⟨reply, ran, rest⟩ := bind_ok stepped
    rw [broadcastOf_eq, Messaging.broadcast, run] at ran
    cases ran
    cases rest
    exact ⟨begun, by simp [Messaging.events]⟩
  | sendToClient kind message statusOf other =>
    obtain ⟨reply, ran, rest⟩ := bind_ok stepped
    rw [sendOf_eq, inv.sendToClient] at ran
    cases rest
    refine ⟨?_, by simp [Messaging.events]⟩
    cases found : m.world.findClientByID (cString other) with
    | none =>
      rw [found] at ran
      cases ran
      exact begun
    | some websocket =>
      rw [found] at ran
      cases ran
      exact begun

/-- A client that was closed is not sent anything any more. -/
theorem closed_mailbox {m m' : Messaging} {actions : List MessagingAction}
    (run : messaging.Run m actions m') (inv : Inv m.world) {clientID : LuaString}
    (closed : clientID ∈ m.world.history.closed) :
    m'.hub.mailbox clientID = m.hub.mailbox clientID := by
  have each : ∀ m action m', (Inv m.world ∧ clientID ∈ m.world.history.opened) →
      messaging.Enabled m action → messaging.step m action = .ok m' →
      (Inv m'.world ∧ clientID ∈ m'.world.history.opened) ∧
        ∀ event ∈ m.events action, event ≠ HubEvent.join clientID := by
    intro m action m' held enabled stepped
    obtain ⟨opened, fresh⟩ := opened_messagingStep held.1 enabled stepped held.2
    obtain ⟨next, ran, inv'⟩ := held.1.messagingStep action enabled
    obtain rfl := Except.ok.inj (ran.symm.trans stepped)
    exact ⟨⟨inv', opened⟩, fun event member joins => fresh (joins ▸ member)⟩
  have apart := (run.forall_events each ⟨inv, inv.clients.closedOpened clientID closed⟩).2
  rw [messaging_simulates.run messaging_inductive run inv]
  exact Hub.mailbox_foldl (fun member => apart _ member rfl) fun joined => joined.2 closed

/-! ## Main result -/

/-- The server is a hub: what happened to it is what its events do to an empty hub, no
step fails, a broadcast is dropped if it was dropped for one of the open sockets, a
message to one client is dropped if the client is not connected, and a client that was
closed is never sent anything again. -/
structure MessagesDelivered (start : Messaging) (actions : List MessagingAction) (m : Messaging) :
    Prop where
  hub : m.hub = (messaging.eventsAlong Messaging.events actions start).foldl Hub.after Hub.empty
  noFault : ∀ action, MessagingEnabled m action → ∃ m', messagingStep m action = .ok m'
  broadcastStatus : ∀ kind message statusOf order status m',
    order.Perm m.world.server.websocketClientsMap.keys →
    m.broadcastOf kind message statusOf order = .ok (status, m') →
    ((∃ websocket, (m.world.sockets websocket).isSome ∧ statusOf websocket = .dropped) →
      status = .dropped) ∧
    ((∀ websocket, (m.world.sockets websocket).isSome → statusOf websocket ≠ .dropped) →
      status = .success)
  sendStatus : ∀ kind statusOf message clientID status m',
    m.sendOf kind statusOf message clientID = .ok (status, m') →
    (cString clientID ∉ m.hub.members → status = .dropped) ∧
    ∀ websocket, m.world.sockets websocket = some (cString clientID) → status = statusOf websocket
  closed : ∀ clientID ∈ m.world.history.closed, ∀ later m', messaging.Run m later m' →
    m'.hub.mailbox clientID = m.hub.mailbox clientID

theorem messages_delivered (maxPayloadSize : UInt64) (actions : List MessagingAction)
    (m : Messaging) (run : messaging.Run { world := { server := { maxPayloadSize } } } actions m) :
    MessagesDelivered { world := { server := { maxPayloadSize } } } actions m := by
  have start := Inv.initial maxPayloadSize
  have inv : Inv m.world := messaging_inductive.run run start
  constructor
  case hub =>
    rw [messaging_simulates.run messaging_inductive run start]
    congr 1
    exact Hub.ext (Set.ext fun clientID => by simp [Messaging.hub, Hub.empty]) rfl
  case noFault =>
    intro action enabled
    obtain ⟨m', stepped, -⟩ := inv.messagingStep action enabled
    exact ⟨m', stepped⟩
  case broadcastStatus =>
    intro kind message statusOf order status m' all ran
    obtain ⟨status', run', dropped, kept⟩ :=
      inv.broadcastEach (kind.frame message) statusOf order .success m
    rw [broadcastOf_eq, Messaging.broadcast, run'] at ran
    cases ran
    constructor
    · rintro ⟨websocket, isOpen, lost⟩
      obtain ⟨clientID, owner⟩ := Option.isSome_iff_exists.mp isOpen
      have recipient := (recipients_iff inv all clientID).mpr
        ((inv.clients.connected clientID).mp ⟨websocket, owner⟩)
      exact dropped ⟨clientID, List.mem_of_mem_filter recipient, websocket,
        (inv.findClientByID_iff clientID websocket).mpr owner, lost⟩
    · intro arrived
      refine kept ?_
      rintro ⟨clientID, -, websocket, found, lost⟩
      have owner := (inv.findClientByID_iff clientID websocket).mp found
      exact arrived websocket (by rw [owner]; rfl) lost
  case sendStatus =>
    intro kind statusOf message clientID status m' ran
    rw [sendOf_eq, inv.sendToClient] at ran
    have member := inv.found_iff (cString clientID)
    cases found : m.world.findClientByID (cString clientID) with
    | none =>
      rw [found] at ran
      cases ran
      refine ⟨fun _ => rfl, fun websocket owner => ?_⟩
      rw [(inv.findClientByID_iff _ _).mpr owner] at found
      exact absurd found (Option.some_ne_none websocket)
    | some websocket =>
      rw [found] at ran member
      cases ran
      refine ⟨fun absent => absurd (member.mp rfl) absent, fun other owner => ?_⟩
      rw [(inv.findClientByID_iff _ _).mpr owner] at found
      rw [Option.some.inj found]
  case closed => exact fun clientID member later m' run' => closed_mailbox run' inv member

/-- A client connects, and a greeting is broadcast. -/
theorem messages_delivered_greeting :
    MessagesDelivered {}
      [.server (.webSocketOpen 3 (ascii "0a8a6b8e-3ad5-4bd8-9d4b-5f3a1b0e9c11")),
        .broadcast .text (ascii "hello") (fun _ => .success)
          [ascii "0a8a6b8e-3ad5-4bd8-9d4b-5f3a1b0e9c11"]]
      ⟨World.onWebSocketOpen {} 3 (ascii "0a8a6b8e-3ad5-4bd8-9d4b-5f3a1b0e9c11"),
        [(ascii "0a8a6b8e-3ad5-4bd8-9d4b-5f3a1b0e9c11", ⟨.text, false, ascii "hello"⟩)]⟩ :=
  messages_delivered (16 * 1024 * 1024) _ _ <| System.run_of_follows
    ⟨_, ⟨⟨by decide, by decide⟩, List.not_mem_nil, rfl⟩, rfl, _, List.Perm.refl _, rfl, rfl⟩

end EvoRuntime.Server
