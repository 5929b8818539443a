import EvoRuntime.Server.HttpLifecycle
import EvoRuntime.Server.WebSocketLifecycle

/-!
# All interleavings

`Inv` collects what holds of the requests, of the clients and of the queue. Every
operation keeps it and makes no call on an invalid response or socket, so it is an
inductive invariant of the web server.
-/
namespace EvoRuntime.Server

open Lua Library

structure Inv (w : World) : Prop where
  requests : Pending w.server.httpClientsMap w.responses w.history.started w.history.ended
    w.history.aborted
  clients : Clients w.server.websocketClientsMap w.sockets w.history.opened w.history.closed
    w.history.pushed
  queue : Fifo w.server.deferredEventsQueue w.history.pushed w.history.popped

/-- What an operation returns and the world after it, without a fault. -/
def Keeps {ρ : Type} (result : Except Fault (ρ × World)) : Prop :=
  ∃ value w, result = .ok (value, w) ∧ Inv w

namespace Inv

variable {w : World}

theorem initial (maxPayloadSize : UInt64) : Inv { server := { maxPayloadSize } } :=
  ⟨Pending.empty, Clients.empty, rfl, nofun⟩

/-! ### Events -/

/-- An event that does not concern the clients. -/
theorem emplace (inv : Inv w) {type : EventType} (other : ¬type.IsClientEvent)
    {someID : LuaString} (copied : IsCopied someID) (payload : LuaString) :
    Inv (w.emplace type someID payload) :=
  ⟨inv.requests, inv.clients.other other someID, inv.queue.push ⟨type, someID, payload⟩ copied⟩

theorem requestCopied (inv : Inv w) {requestID : LuaString} (begun : requestID ∈ w.history.started) :
    IsCopied requestID :=
  (inv.requests.named requestID begun).isCopied

/-! ### Requests -/

theorem onRequest (inv : Inv w) {requestID : LuaString} {response : Address}
    (uuid : IsUuid requestID) (fresh : requestID ∉ w.history.started)
    (free : w.responses response = none) (request : HttpRequest) (route : LuaString) :
    Inv (w.onRequest requestID response request route) := by
  have unknown : w.server.httpClientsMap.lookup requestID = none := by
    rw [AList.lookup_eq_none, inv.requests.pending]
    exact fun begun => fresh begun.1
  unfold World.onRequest World.storeRequestDetails
  dsimp only
  split
  · exact ⟨inv.requests.start uuid fresh free, inv.clients.other (by decide) requestID,
      inv.queue.push ⟨.httpStart, requestID, []⟩ uuid.isCopied⟩
  -- The ID is new, so no other request has it.
  next known => exact absurd unknown known

theorem abortResponse (inv : Inv w) (response : Address) : Inv (w.abortResponse response) := by
  unfold World.abortResponse
  -- The handler knows the ID of the request; the map has an entry for it.
  cases owner : w.responses response with
  | none => exact inv
  | some requestID =>
    obtain ⟨data, found, same⟩ := inv.requests.owned response requestID owner
    have begun := ((inv.requests.pending requestID).mp
      (AList.lookup_isSome.mp (by rw [found]; rfl))).1
    have more : (w.history.ended ++ (w.history.aborted ++ [requestID])).Perm
        (requestID :: (w.history.ended ++ w.history.aborted)) := by
      rw [← List.append_assoc]
      exact List.perm_append_singleton _ _
    have finished := inv.requests.finish found more
    rw [same] at finished
    exact ⟨finished, inv.clients.other (by decide) requestID,
      inv.queue.push ⟨.httpAbort, requestID, []⟩ (inv.requestCopied begun)⟩

/-- Calls are recorded without any effect on the invariant. -/
theorem log (inv : Inv w) (calls : List (LuaString × ResponseCall)) :
    Inv { w with history.calls := calls } :=
  ⟨inv.requests, inv.clients, inv.queue⟩

theorem callResponse_ok (inv : Inv w) {requestID : LuaString} {data : HttpMessageData}
    (found : w.server.httpClientsMap.lookup requestID = some data) (call : ResponseCall) :
    w.callResponse requestID data.response call =
      .ok { w with history.calls := w.history.calls ++ [(requestID, call)] } :=
  if_pos (inv.requests.valid requestID data found)

/-- The response was sent, and the request is erased. -/
theorem finish (inv : Inv w) {requestID : LuaString} {data : HttpMessageData}
    (found : w.server.httpClientsMap.lookup requestID = some data) :
    Inv { w.finishResponse requestID data.response with
      server.httpClientsMap := w.server.httpClientsMap.erase requestID } := by
  have more : (w.history.ended ++ [requestID] ++ w.history.aborted).Perm
      (requestID :: (w.history.ended ++ w.history.aborted)) :=
    List.Perm.append_right _ (List.perm_append_singleton _ _)
  exact ⟨inv.requests.finish found more, inv.clients, inv.queue⟩

theorem writeResponse (inv : Inv w) (requestID data : LuaString) (outcome : World.WriteOutcome) :
    Keeps (w.writeResponse requestID data outcome) := by
  unfold World.writeResponse
  cases found : w.server.httpClientsMap.lookup requestID with
  | none => exact ⟨_, w, rfl, inv⟩
  | some message =>
    simp only [inv.callResponse_ok found, bind, Except.bind, pure, Except.pure]
    refine ⟨_, _, rfl, ?_⟩
    split
    · exact (inv.log _).abortResponse _
    · exact inv.log _

theorem endResponse (inv : Inv w) (requestID data : LuaString) :
    Keeps (w.endResponse requestID data) := by
  unfold World.endResponse World.endOn
  cases found : w.server.httpClientsMap.lookup requestID with
  | none => exact ⟨_, w, rfl, inv⟩
  | some message =>
    simp only [inv.callResponse_ok found, bind, Except.bind, pure, Except.pure]
    exact ⟨_, _, rfl, (inv.log _).finish found⟩

theorem tryEndResponse (inv : Inv w) (requestID data : LuaString) (outcome : World.TryEndOutcome) :
    Keeps (w.tryEndResponse requestID data outcome) := by
  unfold World.tryEndResponse World.tryEndOn
  cases found : w.server.httpClientsMap.lookup requestID with
  | none => exact ⟨_, w, rfl, inv⟩
  | some message =>
    simp only [inv.callResponse_ok found, bind, Except.bind, pure, Except.pure]
    cases outcome with
    | responded ok => exact ⟨_, _, rfl, (inv.log _).finish found⟩
    | pending ok => exact ⟨_, _, rfl, inv.log _⟩
    | aborted ok => exact ⟨_, _, rfl, (inv.log _).abortResponse _⟩

theorem writeHead (inv : Inv w) (requestID : LuaString) (call : ResponseCall) :
    Keeps (w.writeHead requestID call) := by
  unfold World.writeHead
  cases found : w.server.httpClientsMap.lookup requestID with
  | none => exact ⟨_, w, rfl, inv⟩
  | some message =>
    simp only [inv.callResponse_ok found, bind, Except.bind, pure, Except.pure]
    exact ⟨_, _, rfl, inv.log _⟩

end Inv

/-- One round of the loop, on a valid response. -/
theorem abortEach_cons {w : World} {requestID : LuaString} {data : HttpMessageData}
    (found : w.server.httpClientsMap.lookup requestID = some data)
    (valid : w.responses data.response = some requestID) (order : List LuaString) :
    ∃ calls, w.abortEach (requestID :: order) =
      World.abortEach order
        (World.finishResponse { w with history.calls := calls } requestID data.response) := by
  have called : ∀ calls call, World.callResponse { w with history.calls := calls } requestID
      data.response call = .ok { w with history.calls := calls ++ [(requestID, call)] } :=
    fun calls call => if_pos valid
  have first := called w.history.calls
  simp only [World.abortEach, World.endOn, found, bind, Except.bind, pure, Except.pure, first, called]
  exact ⟨_, rfl⟩

/-- The loop ends each response in the order, while the others stay valid. -/
theorem abortEach_ok (order : List LuaString) (w : World) (distinct : order.Nodup)
    (each : ∀ requestID ∈ order, ∃ data, w.server.httpClientsMap.lookup requestID = some data ∧
      ∀ response, w.responses response = some requestID ↔ response = data.response) :
    ∃ responses calls,
      w.abortEach order =
        .ok { w with
          responses
          history.ended := w.history.ended ++ order
          history.calls := calls } ∧
      (∀ response requestID, w.responses response = some requestID → requestID ∈ order →
        responses response = none) ∧
      ∀ response, w.responses response = none → responses response = none := by
  induction order generalizing w with
  | nil =>
    refine ⟨w.responses, w.history.calls, ?_, nofun, fun _ unused => unused⟩
    rw [List.append_nil]
    rfl
  | cons requestID order ih =>
    obtain ⟨data, found, owner⟩ := each requestID List.mem_cons_self
    obtain ⟨new, distinct⟩ := List.nodup_cons.mp distinct
    have valid : w.responses data.response = some requestID := (owner _).mpr rfl
    obtain ⟨told, round⟩ := abortEach_cons found valid order
    -- The world after this round. Only the response of `requestID` has changed.
    let next : World := World.finishResponse { w with history.calls := told } requestID data.response
    have remaining : ∀ response other, other ≠ requestID →
        (next.responses response = some other ↔ w.responses response = some other) := by
      intro response other differ
      show Function.update w.responses data.response none response = some other ↔ _
      by_cases same : response = data.response
      · rw [same, Function.update_self, valid, Option.some.injEq]
        exact iff_of_false nofun (Ne.symm differ)
      · rw [Function.update_of_ne same]
    have unset : ∀ response, w.responses response = none ∨ w.responses response = some requestID →
        next.responses response = none := by
      intro response before
      show Function.update w.responses data.response none response = none
      by_cases same : response = data.response
      · rw [same, Function.update_self]
      · rw [Function.update_of_ne same]
        exact before.elim id fun owned => absurd ((owner response).mp owned) same
    obtain ⟨responses, calls, run, gone, unused⟩ := ih next distinct fun other member => by
      obtain ⟨data', found', owner'⟩ := each other (List.mem_cons_of_mem _ member)
      refine ⟨data', found', fun response => ?_⟩
      rw [remaining response other (by rintro rfl; exact new member), owner']
    refine ⟨responses, calls, ?_, ?_, ?_⟩
    · rw [round, run]
      simp only [next, World.finishResponse, List.append_assoc, List.singleton_append]
    · intro response other before member
      by_cases same : other = requestID
      · exact unused response (unset response (Or.inr (same ▸ before)))
      · exact gone response other ((remaining response other same).mpr before)
          ((List.mem_cons.mp member).resolve_left same)
    · exact fun response before => unused response (unset response (Or.inl before))

/-- Purging erases the listed entries that are null. -/
theorem lookup_purge (order : List LuaString) (count : Nat) (clients : WebSocketClients)
    (clientID : LuaString) :
    (order.foldl purgeClient (count, clients)).2.lookup clientID =
      if clientID ∈ order ∧ clients.lookup clientID = some none then none
      else clients.lookup clientID := by
  induction order generalizing count clients with
  | nil => rfl
  | cons other order ih =>
    rw [List.foldl_cons, purgeClient]
    -- Only entries that are null are erased, so the others are found as before.
    by_cases faded : clients.lookup other = some none
    · rw [if_pos faded, ih]
      by_cases same : clientID = other
      · subst same
        rw [AList.lookup_erase, if_neg (fun both => absurd both.2 nofun),
          if_pos ⟨List.mem_cons_self, faded⟩]
      · rw [AList.lookup_erase_ne same]
        simp only [List.mem_cons, same, false_or]
    · rw [if_neg faded, ih]
      by_cases same : clientID = other
      · subst same
        rw [if_neg (fun both => faded both.2), if_neg (fun both => faded both.2)]
      · simp only [List.mem_cons, same, false_or]

theorem purge_kept (order : List LuaString) (count : Nat) (clients : WebSocketClients)
    (clientID : LuaString) (websocket : Address) :
    (order.foldl purgeClient (count, clients)).2.lookup clientID = some (some websocket) ↔
      clients.lookup clientID = some (some websocket) := by
  rw [lookup_purge]
  split
  next faded =>
    rw [faded.2]
    exact iff_of_false nofun nofun
  next => rfl

theorem serverCopied : IsCopied (ascii "SERVER") := ⟨by decide, by decide⟩

namespace Inv

variable {w : World}

/-- The entry of a key has the response that belongs to the key. -/
theorem entry_owned (inv : Inv w) {requestID : LuaString}
    (known : requestID ∈ w.server.httpClientsMap) :
    ∃ data, w.server.httpClientsMap.lookup requestID = some data ∧
      ∀ response, w.responses response = some requestID ↔ response = data.response := by
  obtain ⟨data, found⟩ := Option.isSome_iff_exists.mp (AList.lookup_isSome.mpr known)
  refine ⟨data, found, fun response => ⟨fun owner => ?_, fun same => ?_⟩⟩
  · obtain ⟨data', found', same⟩ := inv.requests.owned response requestID owner
    rw [← same, Option.some.inj (found.symm.trans found')]
  · rw [same]
    exact inv.requests.valid requestID data found

theorem abortAllConnections (inv : Inv w) {order : List LuaString}
    (all : order.Perm w.server.httpClientsMap.keys) :
    ∃ value w', w.abortAllConnections order = .ok (value, w') ∧ Inv w' ∧
      w'.history.opened = w.history.opened ∧ w'.history.pushed = w.history.pushed := by
  obtain ⟨responses, calls, run, gone, unused⟩ := abortEach_ok order w
    (all.nodup_iff.mpr w.server.httpClientsMap.keys_nodup) fun requestID member =>
      inv.entry_owned (AList.mem_keys.mpr (all.mem_iff.mp member))
  unfold World.abortAllConnections
  simp only [run, bind, Except.bind, pure, Except.pure]
  exact ⟨_, _, rfl, ⟨inv.requests.finishAll all gone unused, inv.clients, inv.queue⟩, rfl, rfl⟩

/-! ### Clients -/

theorem clientCopied (inv : Inv w) {websocket : Address} {clientID : LuaString}
    (owner : w.sockets websocket = some clientID) : IsCopied clientID :=
  (inv.clients.named clientID ((inv.clients.connected clientID).mp ⟨websocket, owner⟩).1).isCopied

theorem onWebSocketOpen (inv : Inv w) {websocket : Address} {clientID : LuaString}
    (uuid : IsUuid clientID) (fresh : clientID ∉ w.history.opened)
    (free : w.sockets websocket = none) : Inv (w.onWebSocketOpen websocket clientID) :=
  ⟨inv.requests, inv.clients.open_ uuid fresh free,
    inv.queue.push ⟨.open_, clientID, []⟩ uuid.isCopied⟩

theorem onWebSocketMessage (inv : Inv w) {websocket : Address}
    (isOpen : (w.sockets websocket).isSome) (message : LuaString) :
    ∃ w', w.onWebSocketMessage websocket message = .ok w' ∧ Inv w' := by
  obtain ⟨clientID, owner⟩ := Option.isSome_iff_exists.mp isOpen
  have told : Inv (w.emplace .message clientID message) :=
    ⟨inv.requests, inv.clients.message owner,
      inv.queue.push ⟨.message, clientID, message⟩ (inv.clientCopied owner)⟩
  refine ⟨_, ?_, told⟩
  unfold World.onWebSocketMessage
  rw [owner]
  dsimp only
  split
  · exact if_pos isOpen
  · rfl

theorem closeSocket (inv : Inv w) {websocket : Address} {clientID : LuaString}
    (owner : w.sockets websocket = some clientID) (message : LuaString) :
    ∃ w', w.closeSocket websocket message = .ok w' ∧ Inv w' ∧
      w'.server.httpClientsMap = w.server.httpClientsMap ∧ w'.history.opened = w.history.opened ∧
      w'.server.websocketClientsMap = w.server.websocketClientsMap.insert clientID none := by
  unfold World.closeSocket
  rw [owner]
  exact ⟨_, rfl, ⟨inv.requests, inv.clients.close owner,
    inv.queue.push ⟨.close, clientID, message⟩ (inv.clientCopied owner)⟩, rfl, rfl, rfl⟩

theorem disconnectEach_faded {clientID : LuaString}
    (faded : ∀ websocket, w.server.websocketClientsMap.lookup clientID ≠ some (some websocket))
    (order : List LuaString) : w.disconnectEach (clientID :: order) = w.disconnectEach order := by
  rw [World.disconnectEach]
  split
  next websocket entry => exact absurd entry (faded websocket)
  next => rfl

/-- The loop closes the clients in the order, and opens none. -/
theorem disconnectEach (order : List LuaString) (w : World) (inv : Inv w) :
    ∃ w', w.disconnectEach order = .ok w' ∧ Inv w' ∧
      w'.server.httpClientsMap = w.server.httpClientsMap ∧ w'.history.opened = w.history.opened ∧
      ∀ clientID websocket,
        w'.server.websocketClientsMap.lookup clientID = some (some websocket) →
          w.server.websocketClientsMap.lookup clientID = some (some websocket) ∧
            clientID ∉ order := by
  induction order generalizing w with
  | nil => exact ⟨w, rfl, inv, rfl, rfl, fun _ _ found => ⟨found, List.not_mem_nil⟩⟩
  | cons clientID order ih =>
    by_cases connected :
        ∃ websocket, w.server.websocketClientsMap.lookup clientID = some (some websocket)
    · obtain ⟨websocket, entry⟩ := connected
      obtain ⟨w₁, closed, inv₁, requests₁, opened₁, clients₁⟩ :=
        inv.closeSocket (inv.clients.valid clientID websocket entry) []
      obtain ⟨w', run, inv', requests, opened, kept⟩ := ih w₁ inv₁
      refine ⟨w', ?_, inv', requests.trans requests₁, opened.trans opened₁, ?_⟩
      · rw [World.disconnectEach, entry]
        simp only [closed, bind, Except.bind, run]
      · intro other websocket' found
        obtain ⟨before, later⟩ := kept other websocket' found
        rw [clients₁] at before
        -- Closing made the entry of this client null.
        have differ : other ≠ clientID := by
          rintro rfl
          rw [AList.lookup_insert] at before
          exact absurd before nofun
        rw [AList.lookup_insert_ne differ] at before
        exact ⟨before, mt List.mem_cons.mp (not_or.mpr ⟨differ, later⟩)⟩
    · have faded := not_exists.mp connected
      obtain ⟨w', run, inv', requests, opened, kept⟩ := ih w inv
      -- A client that has faded is skipped.
      refine ⟨w', (disconnectEach_faded faded order).trans run, inv', requests, opened, ?_⟩
      intro other websocket found
      obtain ⟨before, later⟩ := kept other websocket found
      refine ⟨before, mt List.mem_cons.mp (not_or.mpr ⟨?_, later⟩)⟩
      rintro rfl
      exact faded websocket before

/-- Afterwards there are no clients, and no open sockets. -/
theorem disconnectAllClients (inv : Inv w) {order : List LuaString}
    (all : order.Perm w.server.websocketClientsMap.keys) :
    ∃ w', w.disconnectAllClients order = .ok w' ∧ Inv w' ∧
      w'.server.httpClientsMap = w.server.httpClientsMap ∧ w'.history.opened = w.history.opened ∧
      ∀ clientID ∈ w'.history.opened, clientID ∈ w'.history.closed := by
  obtain ⟨w', run, inv', requests, opened, kept⟩ := inv.disconnectEach order w
  -- The order lists all keys, so that every client has been closed.
  have faded : ∀ clientID websocket,
      w'.server.websocketClientsMap.lookup clientID ≠ some (some websocket) := by
    intro clientID websocket found
    obtain ⟨before, missing⟩ := kept clientID websocket found
    exact missing (all.mem_iff.mpr (AList.mem_keys.mp (AList.lookup_isSome.mp (by rw [before]; rfl))))
  unfold World.disconnectAllClients
  simp only [run, bind, Except.bind, pure, Except.pure]
  refine ⟨_, rfl, ⟨inv'.requests, inv'.clients.clear faded, inv'.queue⟩, requests, opened, ?_⟩
  intro clientID begun
  -- A client that was opened and not closed would still have a socket.
  by_contra unclosed
  obtain ⟨websocket, owner⟩ := (inv'.clients.connected clientID).mpr ⟨begun, unclosed⟩
  exact faded clientID websocket (inv'.clients.owned websocket clientID owner)

theorem purgeFadedClients (inv : Inv w) (order : List LuaString) :
    Inv (w.purgeFadedClients order).2 :=
  ⟨inv.requests, inv.clients.purge (purge_kept order 0 _), inv.queue⟩

/-- Purging the entries in any order leaves the clients that are connected. -/
theorem mem_purgeFadedClients (inv : Inv w) {order : List LuaString}
    (all : order.Perm w.server.websocketClientsMap.keys) (clientID : LuaString) :
    clientID ∈ (w.purgeFadedClients order).2.server.websocketClientsMap ↔
      clientID ∈ w.history.opened ∧ clientID ∉ w.history.closed := by
  rw [← inv.clients.connected, ← AList.lookup_isSome]
  change ((order.foldl purgeClient (0, w.server.websocketClientsMap)).2.lookup clientID).isSome ↔ _
  rw [lookup_purge]
  cases entry : w.server.websocketClientsMap.lookup clientID with
  | none =>
    rw [if_neg (fun both => absurd both.2 nofun)]
    refine iff_of_false (by decide) ?_
    rintro ⟨websocket, owner⟩
    rw [inv.clients.owned websocket clientID owner] at entry
    exact absurd entry nofun
  | some socket =>
    -- Every entry is visited, so no null entry is left.
    have listed : clientID ∈ order :=
      all.mem_iff.mpr (AList.mem_keys.mp (AList.lookup_isSome.mp (by rw [entry]; rfl)))
    cases socket with
    | none =>
      rw [if_pos ⟨listed, rfl⟩]
      refine iff_of_false (by decide) ?_
      rintro ⟨websocket, owner⟩
      rw [inv.clients.owned websocket clientID owner] at entry
      exact absurd entry nofun
    | some websocket =>
      rw [if_neg (fun both => absurd both.2 nofun)]
      exact iff_of_true rfl ⟨websocket, inv.clients.valid clientID websocket entry⟩

/-! ### The server -/

theorem startListening (inv : Inv w) (listenSocket : Option Address) (port : Nat) :
    Inv (w.startListening listenSocket port) := by
  cases listenSocket with
  | none => exact inv
  | some socket =>
    exact ⟨inv.requests, inv.clients.other (by decide) (ascii "SERVER"),
      inv.queue.push ⟨.listen, ascii "SERVER", decimal port⟩ serverCopied⟩

/-- What holds after a server that was listening has stopped. -/
theorem stopListening (inv : Inv w) {clients requests : List LuaString}
    (allClients : clients.Perm w.server.websocketClientsMap.keys)
    (allRequests : requests.Perm w.server.httpClientsMap.keys)
    (listening : w.server.usListenSocket.isSome) :
    ∃ w' before, w.stopListening clients requests = .ok w' ∧ Inv w' ∧
      w'.history.opened = w.history.opened ∧
      w'.history.pushed = before ++ [(EventType.shutdown.code, ascii "SERVER")] ∧
      ∀ clientID ∈ w.history.opened, before.count (EventType.close.code, clientID) = 1 := by
  obtain ⟨socket, isSet⟩ := Option.isSome_iff_exists.mp listening
  obtain ⟨w₁, disconnected, inv₁, requests₁, opened₁, closed₁⟩ := inv.disconnectAllClients allClients
  rw [← requests₁] at allRequests
  obtain ⟨value, w₂, aborted, inv₂, opened₂, pushed₂⟩ := inv₁.abortAllConnections allRequests
  unfold World.stopListening
  simp only [isSet, disconnected, aborted, bind, Except.bind, pure, Except.pure]
  refine ⟨_, w₂.history.pushed, rfl, ?_, opened₂.trans opened₁, rfl, ?_⟩
  · exact ⟨inv₂.requests, inv₂.clients.other (by decide) (ascii "SERVER"),
      inv₂.queue.push ⟨.shutdown, ascii "SERVER", ascii "Going Away"⟩ serverCopied⟩
  · intro clientID begun
    rw [pushed₂, ← count_clientEvents clientID (by decide)]
    rw [← opened₁] at begun
    -- Disconnecting has pushed one close for each client, and no other ones follow.
    obtain ⟨messages, shape⟩ := inv₁.clients.trace clientID begun
    rw [shape, if_pos (closed₁ clientID begun), List.count_cons_of_ne (by decide),
      List.count_append, List.count_replicate]
    rfl

/-! ### Polls -/

theorem poll (inv : Inv w) (buffer : Option EventBuffer) : Inv (w.poll buffer) := by
  -- Without a valid buffer, or with an empty queue, nothing is popped.
  have unchanged : Inv { w with history.popped := w.history.popped ++ [] } := by
    rw [List.append_nil]
    exact inv
  unfold World.poll getNextDeferredEvent
  cases buffer with
  | none => simpa using unchanged
  | some buffer =>
    cases memory : buffer.payload with
    | none => simpa [memory] using unchanged
    | some payload =>
      cases waiting : w.server.deferredEventsQueue with
      | nil => simpa [memory, waiting] using unchanged
      | cons event rest =>
        have queue := inv.queue
        rw [waiting] at queue
        -- IDs are short enough for the buffer, so that Lua reads them unchanged.
        have read := key_fill payload w.server.maxPayloadSize (queue.copied event List.mem_cons_self)
        have popped := queue.pop
        simp only [memory, List.length_cons, Nat.lt_succ_self, if_true, Option.map_some, read,
          Option.toList_some]
        exact ⟨inv.requests, inv.clients, popped⟩

/-! ### Steps -/

theorem of_keeps {ρ : Type} {result : Except Fault (ρ × World)} (keeps : Keeps result) :
    ∃ w', (do return (← result).2 : Except Fault World) = .ok w' ∧ Inv w' := by
  obtain ⟨value, w', rfl, inv'⟩ := keeps
  exact ⟨w', rfl, inv'⟩

theorem step (inv : Inv w) (action : Action) (enabled : Enabled w action) :
    ∃ w', step w action = .ok w' ∧ Inv w' := by
  cases action with
  | request requestID response request route =>
    exact ⟨_, rfl, inv.onRequest enabled.1 enabled.2.1 enabled.2.2 request route⟩
  | data requestID chunk isLast =>
    have copied := inv.requestCopied enabled
    cases isLast with
    | true => exact ⟨_, rfl, inv.emplace (by decide) copied chunk⟩
    | false => exact ⟨_, rfl, inv.emplace (by decide) copied chunk⟩
  | writable requestID => exact ⟨_, rfl, inv.emplace (by decide) (inv.requestCopied enabled) []⟩
  | abort response => exact ⟨_, rfl, inv.abortResponse response⟩
  | writeResponse requestID data outcome => exact of_keeps (inv.writeResponse requestID data outcome)
  | endResponse requestID data => exact of_keeps (inv.endResponse requestID data)
  | tryEndResponse requestID data outcome =>
    exact of_keeps (inv.tryEndResponse requestID data outcome)
  | writeResponseStatus requestID statusCodeAndText => exact of_keeps (inv.writeHead requestID _)
  | writeResponseHeader requestID key value => exact of_keeps (inv.writeHead requestID _)
  | accessRequest requestID accessor => exact ⟨w, rfl, inv⟩
  | abortAllConnections order =>
    obtain ⟨value, w', run, inv', -⟩ := inv.abortAllConnections enabled
    exact of_keeps ⟨value, w', run, inv'⟩
  | webSocketOpen websocket clientID =>
    exact ⟨_, rfl, inv.onWebSocketOpen enabled.1 enabled.2.1 enabled.2.2⟩
  | webSocketMessage websocket message => exact inv.onWebSocketMessage enabled message
  | webSocketClose websocket message =>
    obtain ⟨clientID, owner⟩ := Option.isSome_iff_exists.mp enabled
    obtain ⟨w', run, inv', -⟩ := inv.closeSocket owner message
    exact ⟨w', run, inv'⟩
  | setEchoMode enabledFlag => exact ⟨_, rfl, inv.requests, inv.clients, inv.queue⟩
  | purgeFadedClients order => exact ⟨_, rfl, inv.purgeFadedClients order⟩
  | getNextDeferredEvent buffer => exact ⟨_, rfl, inv.poll buffer⟩
  | startListening listenSocket port => exact ⟨_, rfl, inv.startListening listenSocket port⟩
  | stopListening clients requests =>
    cases listening : w.server.usListenSocket with
    | none => exact ⟨w, by simp only [EvoRuntime.Server.step, World.stopListening, listening], inv⟩
    | some socket =>
      obtain ⟨w', before, run, inv', -⟩ :=
        inv.stopListening enabled.1 enabled.2 (by rw [listening]; rfl)
      exact ⟨w', run, inv'⟩

end Inv

/-- The invariant is inductive, so that no interleaving leads to a fault. -/
theorem webServer_inductive : webServer.Inductive Inv where
  initial w := by
    rintro ⟨maxPayloadSize, rfl⟩
    exact Inv.initial maxPayloadSize
  preserved _ action inv enabled := inv.step action enabled

end EvoRuntime.Server
