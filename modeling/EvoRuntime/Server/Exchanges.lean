import EvoRuntime.Library.Sessions
import EvoRuntime.Server.HttpServer

/-!
# Exchanges

An `Exchange` is one request with its response, as if there were no other ones: whether
it waits for an answer, the calls on its response so far, and the events that Lua is told
of it. This module names neither the maps of the server nor its queue.
-/
namespace EvoRuntime.Server

open Lua Library

inductive Phase where
  | unknown
  | pending (requestDetails : HttpRequestDetails)
  | answered
  | aborted

structure Exchange where
  phase : Phase := .unknown
  /-- The calls on the response. -/
  said : List ResponseCall := []
  /-- The types and messages of the events for Lua. -/
  told : List (Nat × LuaString) := []

/-- As much of a payload as arrives in Lua. -/
def arriving (maxPayloadSize : UInt64) (payload : LuaString) : LuaString :=
  payload.take (min (maxPayloadSize - 1) (UInt64.ofNat payload.length)).toNat

/-- What is copied of a request. -/
def HttpRequest.details (request : HttpRequest) (route : LuaString) : HttpRequestDetails where
  method := request.method
  url := request.url
  query := request.query
  endpoint := route
  headers := request.headers.foldl (fun headers (key, value) => headers.insert key value) ∅

/-- As much of a text as Lua reads from its buffer. -/
def shown (bufferSize : Nat) (text : LuaString) : LuaString := cString (copyCString bufferSize text)

/-- What Lua reads of the details. The map of the headers is iterated in some order. -/
def HttpRequestDetails.read (requestDetails : HttpRequestDetails) (bufferSize : Nat)
    (order : List LuaString) : RequestDetails where
  method := some (upper (shown bufferSize requestDetails.method))
  url := some (shown bufferSize requestDetails.url)
  query := some (shown bufferSize requestDetails.query)
  endpoint := some (shown bufferSize requestDetails.endpoint)
  headers :=
    let serializedHeaders := WebServer.serializeHeaders requestDetails.headers order
    if serializedHeaders.length + 1 > bufferSize then none
    else some (deserializeHeaders (shown bufferSize serializedHeaders))

/-- What an exchange goes through. -/
inductive ExchangeEvent where
  | routed (requestDetails : HttpRequestDetails)
  | announced (type : EventType) (payload : LuaString)
  | left
  | response (response : Response)
  | shutdown

/-- The answer to requests that wait while the server shuts down. -/
def shutdownAnswer : List ResponseCall :=
  [.writeStatus (ascii "503 Service Unavailable"),
    .writeHeader (ascii "Content-Type") (ascii "text/plain"),
    .finish (ascii "Service Unavailable: Server shutting down")]

/-- What Lua gets back if there is no such request. -/
def Response.refusal : Response → Reply
  | write _ _ => .status .none
  | send _ => .status .none
  | stream _ _ => .status .none
  | status _ => .flag false
  | header _ _ => .flag false

namespace Exchange

variable (maxPayloadSize : UInt64)

/-- It has been answered, or the peer has gone away. -/
def IsOver (x : Exchange) : Prop := x.phase = .answered ∨ x.phase = .aborted

def say (x : Exchange) (calls : List ResponseCall) : Exchange := { x with said := x.said ++ calls }

def tell (x : Exchange) (type : EventType) (payload : LuaString) : Exchange :=
  { x with told := x.told ++ [(type.code, arriving maxPayloadSize payload)] }

def finish (x : Exchange) : Exchange := { x with phase := .answered }

def leave (x : Exchange) : Exchange :=
  { x.tell maxPayloadSize .httpAbort [] with phase := .aborted }

/-- What Lua gets back for a request that waits, and what becomes of it. -/
def answer (x : Exchange) : Response → Reply × Exchange
  | .write message outcome =>
    let x := x.say [.write message]
    (.status (if outcome.success then .sentAndEnded else .none),
      if outcome.aborted then x.leave maxPayloadSize else x)
  | .send message => (.status .sentAndEnded, (x.say [.finish message]).finish)
  | .stream message outcome =>
    let x := x.say [.tryEnd message]
    match outcome with
    | .responded ok => (.status (.ofFlags ok true), x.finish)
    | .pending ok => (.status (.ofFlags ok false), x)
    | .aborted ok => (.status (.ofFlags ok false), x.leave maxPayloadSize)
  | .status statusCodeAndText => (.flag true, x.say [.writeStatus (cString statusCodeAndText)])
  | .header headerName headerValue =>
    (.flag true, x.say [.writeHeader (cString headerName) (cString headerValue)])

/-- Only a request that waits can be answered. -/
def respond (x : Exchange) (response : Response) : Reply × Exchange :=
  match x.phase with
  | .pending _ => x.answer maxPayloadSize response
  | _ => (response.refusal, x)

/-- The details of a request can be read as long as it waits. -/
def details (x : Exchange) (bufferSize : Nat) (order : List LuaString) : Option RequestDetails :=
  match x.phase with
  | .pending requestDetails => some (requestDetails.read bufferSize order)
  | _ => none

def after (x : Exchange) : ExchangeEvent → Exchange
  | .routed requestDetails =>
    match x.phase with
    | .unknown => { x.tell maxPayloadSize .httpStart [] with phase := .pending requestDetails }
    | _ => x
  | .announced type payload => x.tell maxPayloadSize type payload
  | .left =>
    match x.phase with
    | .pending _ => x.leave maxPayloadSize
    | _ => x
  | .response response => (x.respond maxPayloadSize response).2
  | .shutdown =>
    match x.phase with
    | .pending _ => (x.say shutdownAnswer).finish
    | _ => x

variable {maxPayloadSize} {x : Exchange}

theorem respond_over (ended : x.IsOver) (response : Response) :
    x.respond maxPayloadSize response = (response.refusal, x) := by
  unfold respond
  rcases ended with phase | phase <;> rw [phase]

/-- An exchange that is over stays as it is, except that Lua may be told of more. -/
theorem after_over (ended : x.IsOver) (event : ExchangeEvent) :
    (x.after maxPayloadSize event).phase = x.phase ∧
      (x.after maxPayloadSize event).said = x.said := by
  cases event with
  | announced type payload => exact ⟨rfl, rfl⟩
  | response response =>
    rw [after, respond_over ended]
    exact ⟨rfl, rfl⟩
  | _ =>
    unfold after
    rcases ended with phase | phase <;> rw [phase] <;> exact ⟨phase, rfl⟩

/-- What happens later does not change how an exchange ended. -/
theorem foldl_over (ended : x.IsOver) (events : List ExchangeEvent) :
    (events.foldl (after maxPayloadSize) x).phase = x.phase ∧
      (events.foldl (after maxPayloadSize) x).said = x.said := by
  refine foldl_keeps (P := fun y : Exchange => y.phase = x.phase ∧ y.said = x.said)
    (fun y event same => ?_) events ⟨rfl, rfl⟩
  have endedToo : y.IsOver := by
    rw [IsOver, same.1]
    exact ended
  obtain ⟨phase, said⟩ := after_over endedToo event
  exact ⟨phase.trans same.1, said.trans same.2⟩

/-- A request only waits once it is routed. -/
theorem pending_of_after {event : ExchangeEvent} {requestDetails : HttpRequestDetails}
    (pending : (x.after maxPayloadSize event).phase = .pending requestDetails) :
    x.phase = .pending requestDetails ∨ event = .routed requestDetails := by
  cases event with
  | routed details =>
    rw [after] at pending
    split at pending
    · exact Or.inr (congrArg _ (Phase.pending.inj pending))
    · exact Or.inl pending
  | announced type payload => exact Or.inl pending
  | left =>
    rw [after] at pending
    split at pending
    · cases pending
    · exact Or.inl pending
  | shutdown =>
    rw [after] at pending
    split at pending
    · cases pending
    · exact Or.inl pending
  | response response =>
    rw [after, respond] at pending
    split at pending
    next details before =>
      left
      cases response with
      | write message outcome =>
        simp only [answer] at pending
        split at pending
        · cases pending
        · exact pending
      | send message => cases pending
      | stream message outcome =>
        cases outcome with
        | responded ok => cases pending
        | pending ok => exact pending
        | aborted ok => cases pending
      | status statusCodeAndText => exact pending
      | header headerName headerValue => exact pending
    next => exact Or.inl pending

theorem pending_of_foldl {events : List ExchangeEvent} {requestDetails : HttpRequestDetails}
    (pending : (events.foldl (after maxPayloadSize) x).phase = .pending requestDetails) :
    x.phase = .pending requestDetails ∨ .routed requestDetails ∈ events := by
  induction events generalizing x with
  | nil => exact Or.inl pending
  | cons event events ih =>
    rcases ih pending with now | later
    · rcases pending_of_after now with before | routed
      · exact Or.inl before
      · exact Or.inr (routed ▸ List.mem_cons_self)
    · exact Or.inr (List.mem_cons_of_mem _ later)

end Exchange

end EvoRuntime.Server
