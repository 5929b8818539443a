import EvoRuntime.Library.Pairing
import EvoRuntime.Server.Interleavings

/-!
# The life of a request

`Pending` ties the map of the server to the valid responses: each entry has the valid
response of its request, and each valid response has an entry. A request leaves both at
once, whether it is ended or aborted.
-/
namespace EvoRuntime.Server

open Lua Library

abbrev HttpClients := AList fun _ : LuaString => HttpMessageData

/-- The response of each request in the map. -/
def responseOf (clients : HttpClients) (requestID : LuaString) : Option Address :=
  (clients.lookup requestID).map HttpMessageData.response

theorem responseOf_insert (clients : HttpClients) (requestID : LuaString) (data : HttpMessageData) :
    responseOf (clients.insert requestID data) =
      Function.update (responseOf clients) requestID (some data.response) := by
  have tables := congrArg (Option.map HttpMessageData.response ∘ ·)
    (lookup_insert_eq clients requestID data)
  rwa [Function.comp_update] at tables

theorem responseOf_erase (clients : HttpClients) (requestID : LuaString) :
    responseOf (clients.erase requestID) = Function.update (responseOf clients) requestID none := by
  have tables := congrArg (Option.map HttpMessageData.response ∘ ·)
    (lookup_erase_eq clients requestID)
  rwa [Function.comp_update] at tables

/-- The map and the valid responses are paired if each knows what the other one has. -/
theorem paired_iff {clients : HttpClients} {responses : Address → Option LuaString} :
    Paired (responseOf clients) responses ↔
      (∀ requestID data, clients.lookup requestID = some data →
        responses data.response = some requestID) ∧
      ∀ response requestID, responses response = some requestID →
        ∃ data, clients.lookup requestID = some data ∧ data.response = response := by
  constructor
  · intro paired
    refine ⟨fun requestID data found => ?_, fun response requestID owner => ?_⟩
    · exact (paired requestID data.response).mp (by rw [responseOf, found]; rfl)
    · exact Option.map_eq_some_iff.mp ((paired requestID response).mpr owner)
  · rintro ⟨valid, owned⟩ requestID response
    rw [responseOf, Option.map_eq_some_iff]
    constructor
    · rintro ⟨data, found, rfl⟩
      exact valid requestID data found
    · exact owned response requestID

structure Pending (clients : HttpClients) (responses : Address → Option LuaString)
    (started ended aborted : List LuaString) : Prop where
  valid : ∀ requestID data, clients.lookup requestID = some data →
    responses data.response = some requestID
  owned : ∀ response requestID, responses response = some requestID →
    ∃ data, clients.lookup requestID = some data ∧ data.response = response
  pending : ∀ requestID, requestID ∈ clients ↔
    requestID ∈ started ∧ requestID ∉ ended ∧ requestID ∉ aborted
  finished : ∀ requestID, requestID ∈ ended ∨ requestID ∈ aborted → requestID ∈ started
  once : (ended ++ aborted).Nodup
  named : ∀ requestID ∈ started, IsUuid requestID

namespace Pending

variable {clients : HttpClients} {responses : Address → Option LuaString}
  {started ended aborted : List LuaString}

theorem empty : Pending ∅ (fun _ => none) [] [] [] where
  valid _ _ found := by simp at found
  owned _ _ found := by simp at found
  pending _ := by simp
  finished _ member := by simp at member
  once := by simp
  named _ member := by simp at member

/-- A new request. -/
theorem start (held : Pending clients responses started ended aborted) {requestID : LuaString}
    {data : HttpMessageData} (uuid : IsUuid requestID) (fresh : requestID ∉ started)
    (free : responses data.response = none) :
    Pending (clients.insert requestID data)
      (Function.update responses data.response (some requestID)) (started ++ [requestID]) ended
      aborted := by
  have missing : responseOf clients requestID = none := by
    rw [responseOf, AList.lookup_eq_none.mpr fun known => fresh ((held.pending requestID).mp known).1]
    rfl
  have paired := (paired_iff.mpr ⟨held.valid, held.owned⟩).insert requestID _ missing free
  rw [← responseOf_insert] at paired
  obtain ⟨valid, owned⟩ := paired_iff.mp paired
  refine { valid, owned, once := held.once, pending := ?pending, finished := ?finished,
           named := ?named }
  case pending =>
    intro other
    rw [AList.mem_insert, held.pending, List.mem_append, List.mem_singleton]
    constructor
    · rintro (rfl | ⟨begun, open_⟩)
      · exact ⟨Or.inr rfl, fun member => fresh (held.finished _ (Or.inl member)),
          fun member => fresh (held.finished _ (Or.inr member))⟩
      · exact ⟨Or.inl begun, open_⟩
    · rintro ⟨begun | same, open_⟩
      · exact Or.inr ⟨begun, open_⟩
      · exact Or.inl same
  case finished => exact fun other member => List.mem_append_left _ (held.finished other member)
  case named => exact List.forall_mem_append.mpr ⟨held.named, List.forall_mem_singleton.mpr uuid⟩

/-- A pending request is ended or aborted. -/
theorem finish (held : Pending clients responses started ended aborted) {requestID : LuaString}
    {data : HttpMessageData} (found : clients.lookup requestID = some data)
    {ended' aborted' : List LuaString}
    (more : (ended' ++ aborted').Perm (requestID :: (ended ++ aborted))) :
    Pending (clients.erase requestID) (Function.update responses data.response none) started
      ended' aborted' := by
  have member : requestID ∈ clients := AList.lookup_isSome.mp (by rw [found]; rfl)
  obtain ⟨begun, unended, unaborted⟩ := (held.pending requestID).mp member
  -- Exactly this request is finished now, besides those that were before.
  have members : ∀ other, other ∈ ended' ∨ other ∈ aborted' ↔
      other = requestID ∨ other ∈ ended ∨ other ∈ aborted := by
    intro other
    rw [← List.mem_append, more.mem_iff, List.mem_cons, List.mem_append]
  have entry : responseOf clients requestID = some data.response := by rw [responseOf, found]; rfl
  have paired := (paired_iff.mpr ⟨held.valid, held.owned⟩).erase entry
  rw [← responseOf_erase] at paired
  obtain ⟨valid, owned⟩ := paired_iff.mp paired
  refine { valid, owned, named := held.named, pending := ?pending, finished := ?finished,
           once := ?once }
  case pending =>
    intro other
    rw [AList.mem_erase, held.pending, ← not_or, ← not_or, members, not_or]
    tauto
  case finished =>
    intro other member
    rcases (members other).mp member with rfl | old
    · exact begun
    · exact held.finished other old
  case once =>
    rw [more.nodup_iff, List.nodup_cons, List.mem_append, not_or]
    exact ⟨⟨unended, unaborted⟩, held.once⟩

/-- All pending requests are ended. -/
theorem finishAll (held : Pending clients responses started ended aborted) {order : List LuaString}
    (all : order.Perm clients.keys) {responses' : Address → Option LuaString}
    (invalid : ∀ response requestID, responses response = some requestID → requestID ∈ order →
      responses' response = none)
    (unused : ∀ response, responses response = none → responses' response = none) :
    Pending ∅ responses' started (ended ++ order) aborted := by
  -- The order lists the keys of the map, which are the pending requests.
  have pending : ∀ requestID, requestID ∈ order ↔
      requestID ∈ started ∧ requestID ∉ ended ∧ requestID ∉ aborted := fun requestID => by
    rw [all.mem_iff, ← AList.mem_keys, held.pending]
  constructor
  case valid => intro _ _ found; simp at found
  case owned =>
    intro response requestID owner
    cases before : responses response with
    | none => rw [unused response before] at owner; exact absurd owner nofun
    | some other =>
      obtain ⟨data, found, -⟩ := held.owned response other before
      have member := (AList.mem_keys).mp (AList.lookup_isSome.mp (by rw [found]; rfl))
      rw [invalid response other before (all.mem_iff.mpr member)] at owner
      exact absurd owner nofun
  case pending =>
    intro requestID
    rw [List.mem_append, pending]
    simp only [AList.notMem_empty, false_iff]
    tauto
  case finished =>
    intro requestID member
    rw [List.mem_append, pending] at member
    rcases member with (old | new) | old
    · exact held.finished _ (Or.inl old)
    · exact new.1
    · exact held.finished _ (Or.inr old)
  case once =>
    -- The pending requests are distinct, and none of them was finished before.
    have reorder : (ended ++ order ++ aborted).Perm (order ++ (ended ++ aborted)) := by
      rw [← List.append_assoc]
      exact List.Perm.append_right _ List.perm_append_comm
    rw [reorder.nodup_iff, List.nodup_append']
    refine ⟨all.nodup_iff.mpr clients.keys_nodup, held.once, ?_⟩
    intro requestID new old
    obtain ⟨-, unended, unaborted⟩ := (pending requestID).mp new
    exact (List.mem_append.mp old).elim unended unaborted
  case named => exact held.named

end Pending

end EvoRuntime.Server
