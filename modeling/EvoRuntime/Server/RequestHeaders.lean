import EvoRuntime.Lua.Patterns
import EvoRuntime.Server.WebServer

/-!
# Request headers

The server writes the headers of a request as lines, and `HttpServer` reads them back with
patterns.

## Main result

`headers_roundTrip_iff`: the map that is read back is the one that was written if and only
if no header is empty.

## Proof strategy

The lines are the tokens of the text (`tokens_lines`). `search_headerPattern` says what the
pattern finds in one of them: where nothing follows the blank behind the colon, the blank
itself is taken for the value.
-/
namespace EvoRuntime.Server

open Lua Library Pattern

/-! ## Reading -/

abbrev Headers := AList fun _ : LuaString => LuaString

/-- The characters of `[^\r\n]`. -/
def isInLine (c : UInt8) : Bool := c ≠ 0x0D && c ≠ 0x0A

def colon : UInt8 := 0x3A

/-- `([^:]+):%s*(.+)` -/
def headerPattern : Pattern UInt8 :=
  [{ accepts := (· ≠ colon), repetition := .more, captured := true }, literalItem colon, spaces,
    something]

def deserializeLine (headers : Headers) (line : LuaString) : Headers :=
  match (search headerPattern line).map Found.captures with
  | some [key, value] => headers.insert key value
  | _ => headers

def deserializeHeaders (serializedHeaders : LuaString) : Headers :=
  (tokens isInLine serializedHeaders).foldl deserializeLine ∅

/-- `string.upper(s)`. -/
def upper (s : LuaString) : LuaString :=
  s.map fun c => if 0x61 ≤ c ∧ c ≤ 0x7A then c - 0x20 else c

/-- An `HttpServer`, with the server behind its handle. -/
structure HttpServer where
  nativeHandle : WebServer
  maxPayloadSize : Nat

structure RequestDetails where
  method : Option LuaString
  url : Option LuaString
  query : Option LuaString
  endpoint : Option LuaString
  headers : Option Headers

namespace HttpServer

variable (self : HttpServer) (requestID : LuaString)

def GetRequestMethod : Option LuaString :=
  (self.nativeHandle.getRequestMethod requestID self.maxPayloadSize).map fun cdata =>
    upper (cString cdata)

def GetRequestURL : Option LuaString :=
  (self.nativeHandle.getRequestURL requestID self.maxPayloadSize).map cString

def GetRequestQuery : Option LuaString :=
  (self.nativeHandle.getRequestQuery requestID self.maxPayloadSize).map cString

def GetRequestEndpoint : Option LuaString :=
  (self.nativeHandle.getRequestEndpoint requestID self.maxPayloadSize).map cString

/-- The map of the server is iterated in some order. -/
def GetRequestHeaders (order : List LuaString) : Option LuaString :=
  (self.nativeHandle.getSerializedRequestHeaders requestID order self.maxPayloadSize).map cString

def HasRequestDetails : Bool := self.nativeHandle.hasRequest requestID

def GetRequestDetails (order : List LuaString) : Option RequestDetails :=
  let deserializedHeaders := (self.GetRequestHeaders requestID order).map deserializeHeaders
  if ¬self.HasRequestDetails requestID then none
  else some
    { method := self.GetRequestMethod requestID
      url := self.GetRequestURL requestID
      query := self.GetRequestQuery requestID
      endpoint := self.GetRequestEndpoint requestID
      headers := deserializedHeaders }

end HttpServer

/-! ## One line -/

/-- A name that can be told from what follows it. -/
structure IsHeaderName (key : LuaString) : Prop where
  nonempty : key ≠ []
  clean : ∀ c ∈ key, c ≠ colon ∧ c ≠ 0 ∧ isInLine c

structure IsHeaderValue (value : LuaString) : Prop where
  noLeadingSpace : ∀ c ∈ value.head?, isSpace c = false
  clean : ∀ c ∈ value, c ≠ 0 ∧ isInLine c

def headerLine (key value : LuaString) : LuaString := key ++ ascii ": " ++ value

/-- What is read for a value that was written. -/
def readValue (value : LuaString) : LuaString := if value = [] then ascii " " else value

theorem search_headerPattern {key value : LuaString} (name : IsHeaderName key)
    (noLeadingSpace : ∀ c ∈ value.head?, isSpace c = false) :
    (search headerPattern (headerLine key value)).map Found.captures =
      some [key, readValue value] := by
  -- The key ends at the first colon.
  have found : ∀ later, matchHere [literalItem colon, spaces, something] (colon :: 0x20 :: value) =
      some later → (search headerPattern (headerLine key value)).map Found.captures =
        some (key :: later.captures) := by
    intro later matched
    have here : matchHere headerPattern (key ++ colon :: 0x20 :: value) = _ :=
      matchHere_taken ⟨fun c member => decide_eq_true (name.clean c member).1,
        List.length_pos_iff.mpr name.nonempty⟩ (by rintro c ⟨⟩; decide) matched
    have line : headerLine key value = key ++ colon :: 0x20 :: value :=
      List.append_assoc key (ascii ": ") value
    rw [line, search_here here]
    rfl
  unfold readValue
  split
  next empty =>
    rw [empty] at found ⊢
    exact found { text := ascii ": ", captures := [ascii " "] } rfl
  next nonempty =>
    have last : matchHere [something] (value ++ []) = some { text := value, captures := [value] } :=
      matchHere_run nonempty (fun _ _ => rfl) (by simp)
    rw [List.append_nil] at last
    have blank : matchHere [spaces, something] ([0x20] ++ value) = _ :=
      matchHere_taken ⟨by decide +kernel, trivial⟩ noLeadingSpace last
    refine found { text := colon :: 0x20 :: value, captures := [value] } ?_
    rw [matchHere_one rfl, if_pos (by decide)]
    exact congrArg _ blank

/-! ## All lines -/

/-- Names and values of headers that the server can be asked to write. -/
structure WellFormed (headers : Headers) : Prop where
  name : ∀ key ∈ headers.keys, IsHeaderName key
  value : ∀ key value, headers.lookup key = some value → IsHeaderValue value

variable {headers : Headers} {order : List LuaString} {key : LuaString}

def valueOf (headers : Headers) (key : LuaString) : LuaString := (headers.lookup key).getD []

theorem lookup_valueOf (member : key ∈ headers.keys) :
    headers.lookup key = some (valueOf headers key) := by
  obtain ⟨value, found⟩ := Option.isSome_iff_exists.mp (AList.lookup_isSome.mpr member)
  rw [valueOf, found, Option.getD_some]

theorem serializeHeaders_lines (known : ∀ key ∈ order, key ∈ headers.keys) :
    WebServer.serializeHeaders headers order =
      (order.map fun key => headerLine key (valueOf headers key)).flatMap (· ++ ascii "\r\n") := by
  rw [WebServer.serializeHeaders, List.flatMap_map]
  refine List.flatMap_congr fun key member => ?_
  rw [lookup_valueOf (known key member)]
  rfl

theorem headerLine_clean {value : LuaString} (name : IsHeaderName key) (shown : IsHeaderValue value) :
    ∀ c ∈ headerLine key value, c ≠ 0 ∧ isInLine c := by
  have separator : ∀ c ∈ ascii ": ", c ≠ 0 ∧ isInLine c := by decide +kernel
  intro c member
  rcases List.mem_append.mp member with member | member
  · rcases List.mem_append.mp member with member | member
    · exact (name.clean c member).2
    · exact separator c member
  · exact shown.clean c member

/-- Reading the lines sets each header to what is read for its value. -/
theorem foldl_deserializeLine (wellFormed : WellFormed headers)
    (known : ∀ key ∈ order, key ∈ headers.keys) (read : Headers) (key : LuaString) :
    ((order.map fun key => headerLine key (valueOf headers key)).foldl deserializeLine read).lookup key =
      if key ∈ order then some (readValue (valueOf headers key)) else read.lookup key := by
  induction order generalizing read with
  | nil => rfl
  | cons first rest ih =>
    have found := known first List.mem_cons_self
    have step : deserializeLine read (headerLine first (valueOf headers first)) =
        read.insert first (readValue (valueOf headers first)) := by
      rw [deserializeLine, search_headerPattern (wellFormed.name first found)
        (wellFormed.value first _ (lookup_valueOf found)).noLeadingSpace]
    rw [List.map_cons, List.foldl_cons, step,
      ih (fun other member => known other (List.mem_cons_of_mem _ member))]
    -- A later line with the same name sets the same value again.
    by_cases later : key ∈ rest
    · rw [if_pos later, if_pos (List.mem_cons_of_mem _ later)]
    · rw [if_neg later]
      by_cases same : key = first
      · rw [same, AList.lookup_insert, if_pos List.mem_cons_self]
      · rw [AList.lookup_insert_ne same, if_neg (by simp [same, later])]

theorem deserializeHeaders_lookup (wellFormed : WellFormed headers) (all : order.Perm headers.keys)
    (key : LuaString) :
    (deserializeHeaders (WebServer.serializeHeaders headers order)).lookup key =
      (headers.lookup key).map readValue := by
  have known : ∀ key ∈ order, key ∈ headers.keys := fun key => all.mem_iff.mp
  have inside : ∀ line ∈ order.map fun key => headerLine key (valueOf headers key),
      ∀ c ∈ line, isInLine c := by
    rintro line member c inside
    obtain ⟨key, listed, rfl⟩ := List.mem_map.mp member
    have found := known key listed
    exact (headerLine_clean (wellFormed.name key found)
      (wellFormed.value key _ (lookup_valueOf found)) c inside).2
  have nonempty : ∀ line ∈ order.map fun key => headerLine key (valueOf headers key), line ≠ [] := by
    rintro line member
    obtain ⟨key, listed, rfl⟩ := List.mem_map.mp member
    exact List.append_ne_nil_of_left_ne_nil (List.append_ne_nil_of_left_ne_nil
      (wellFormed.name key (known key listed)).nonempty _) _
  rw [deserializeHeaders, serializeHeaders_lines known,
    tokens_lines (by decide) inside (by decide +kernel),
    List.filter_eq_self.mpr (by simpa using nonempty), foldl_deserializeLine wellFormed known]
  by_cases listed : key ∈ order
  · rw [if_pos listed, lookup_valueOf (known key listed), Option.map_some]
  · have missing : headers.lookup key = none :=
      AList.lookup_eq_none.mpr fun member => listed (all.mem_iff.mpr member)
    rw [if_neg listed, missing]
    rfl

/-- A text without a NUL gets through the buffer. -/
theorem serializeHeaders_clean (wellFormed : WellFormed headers)
    (known : ∀ key ∈ order, key ∈ headers.keys) : 0 ∉ WebServer.serializeHeaders headers order := by
  rw [serializeHeaders_lines known]
  intro member
  obtain ⟨line, one, inside⟩ := List.mem_flatMap.mp member
  obtain ⟨key, listed, rfl⟩ := List.mem_map.mp one
  have found := known key listed
  rcases List.mem_append.mp inside with inside | inside
  · exact (headerLine_clean (wellFormed.name key found)
      (wellFormed.value key _ (lookup_valueOf found)) 0 inside).1 rfl
  · exact absurd inside (by decide)

theorem map_readValue_iff {value : Option LuaString} : value.map readValue = value ↔ value ≠ some [] := by
  cases value with
  | none => exact iff_of_true rfl nofun
  | some value =>
    rw [Option.map_some, Option.some.injEq, ne_eq, Option.some.injEq, readValue]
    split
    next empty =>
      rw [empty]
      exact iff_of_false (by decide) (not_not.mpr rfl)
    next nonempty => exact iff_of_true rfl nonempty

/-! ## The round trip -/

/-- Every header that is not empty is read back as it was written, and an empty one is not. -/
theorem headers_roundTrip_iff (server : HttpServer) (requestID : LuaString)
    {data : HttpMessageData} (known : server.nativeHandle.httpClientsMap.lookup requestID = some data)
    (wellFormed : WellFormed data.requestDetails.headers)
    (order : List LuaString) (all : order.Perm data.requestDetails.headers.keys)
    (fits : (WebServer.serializeHeaders data.requestDetails.headers order).length <
      server.maxPayloadSize) :
    (∃ headers, (server.GetRequestHeaders requestID order).map deserializeHeaders = some headers ∧
        ∀ key, headers.lookup key = data.requestDetails.headers.lookup key) ↔
      ∀ key, data.requestDetails.headers.lookup key ≠ some [] := by
  have clean := serializeHeaders_clean wellFormed fun key => all.mem_iff.mp
  have text : server.GetRequestHeaders requestID order =
      some (WebServer.serializeHeaders data.requestDetails.headers order) := by
    rw [HttpServer.GetRequestHeaders, WebServer.getSerializedRequestHeaders,
      WebServer.getRequestText, known]
    dsimp only
    rw [if_neg (by omega), Option.map_some, Option.map_some, cString_copyCString clean fits]
  rw [text, Option.map_some]
  simp only [Option.some.injEq, exists_eq_left', deserializeHeaders_lookup wellFormed all,
    map_readValue_iff]

/-! ### A request with an empty header -/

/-- A server with one request, which has these headers. -/
def serverWith (headers : Headers) : HttpServer where
  nativeHandle :=
    { httpClientsMap := AList.singleton (ascii "1")
        { requestDetails :=
            { method := ascii "get", url := ascii "/", query := [], endpoint := ascii "/"
              headers := headers }
          response := 0 } }
  maxPayloadSize := 64

theorem wellFormed_singleton {key value : LuaString} (name : IsHeaderName key)
    (shown : IsHeaderValue value) : WellFormed (AList.singleton key value) where
  name other member := by
    obtain rfl := List.mem_singleton.mp member
    exact name
  value other text found := by
    have member := List.mem_singleton.mp (AList.mem_lookup_iff.mp found)
    obtain rfl : text = value := eq_of_heq (Sigma.mk.inj member).2
    exact shown

def acceptHeader : Headers := AList.singleton (ascii "accept") (ascii "*/*")

theorem headers_roundTrip_accept :
    (∃ headers, ((serverWith acceptHeader).GetRequestHeaders (ascii "1") [ascii "accept"]).map
        deserializeHeaders = some headers ∧
      ∀ key, headers.lookup key = acceptHeader.lookup key) ↔
    ∀ key, acceptHeader.lookup key ≠ some [] :=
  headers_roundTrip_iff (serverWith acceptHeader) (ascii "1") rfl
    (wellFormed_singleton ⟨by decide, by decide +kernel⟩ ⟨by decide +kernel, by decide +kernel⟩)
    [ascii "accept"] (.refl _) (by decide)

def emptyHeader : Headers := AList.singleton (ascii "x") []

/-- The empty header comes back as a blank. -/
theorem not_roundTrip_empty : WellFormed emptyHeader ∧
    ¬∃ headers, ((serverWith emptyHeader).GetRequestHeaders (ascii "1") [ascii "x"]).map
        deserializeHeaders = some headers ∧
      ∀ key, headers.lookup key = emptyHeader.lookup key := by
  refine ⟨wellFormed_singleton ⟨by decide, by decide +kernel⟩ ⟨by simp, by simp⟩, ?_⟩
  rintro ⟨headers, read, same⟩
  have blank : (((serverWith emptyHeader).GetRequestHeaders (ascii "1") [ascii "x"]).map
      deserializeHeaders).map (AList.lookup (ascii "x")) = some (some (ascii " ")) := by
    decide +kernel
  rw [read, Option.map_some, same] at blank
  exact absurd blank (by decide)

end EvoRuntime.Server
