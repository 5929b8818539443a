import EvoRuntime.Library.Runs
import EvoRuntime.Rml.RenderInterface

/-!
# The trace of render events

RmlUi calls the interface and Lua pops events, in any order. What an event should carry
is said by the call, by what the call returned and, for a geometry handle, by the call that
returned the handle.

## Main result

`events_faithful_iff`: every event carries that, and no read leaves its argument, if and
only if no call has set a transform and the sizes of meshes fit an `int`.

## Proof strategy

`call_faithful` says of one call when the trace is still faithful after it: if it was
before, and the call fits. The rest is an induction over the run.
-/
namespace EvoRuntime.Rml

open Library

/-! ## What the events should be -/

structure Performed where
  call : Call
  returned : Address

/-- The geometry that the call has compiled under this handle. -/
def Performed.compiledAs (performed : Performed) (handle : Address) : Option GeometryInfo :=
  match performed.call with
  | .CompileGeometry vertices indices vertexBuffer indexBuffer _ =>
    if performed.returned = handle then some ⟨vertexBuffer, vertices, indexBuffer, indices⟩ else none
  | _ => none

/-- The geometry behind a handle. -/
def recordOf (before : List Performed) (handle : Address) : Option GeometryInfo :=
  before.findSome? (·.compiledAs handle)

/-- A transform with all entries in order. -/
def transformationUpdate (transform : Matrix4f) : TransformationUpdateEvent :=
  let entry (i : Fin 16) := transform.data.get (i.cast transform.length_data.symm)
  { type := .TRANSFORMATION_UPDATE_EVENT
    x1 := entry 0, x2 := entry 1, x3 := entry 2, x4 := entry 3
    y1 := entry 4, y2 := entry 5, y3 := entry 6, y4 := entry 7
    z1 := entry 8, z2 := entry 9, z3 := entry 10, z4 := entry 11
    w1 := entry 12, w2 := entry 13, w3 := entry 14, w4 := entry 15 }

/-- The event that belongs to a call, if there is one. -/
def Performed.event (before : List Performed) (performed : Performed) : Option DeferredEvent :=
  match performed.call with
  | .CompileGeometry .. =>
    (performed.compiledAs performed.returned).map fun info =>
      .geometryCompilationDetails ⟨.GEOMETRY_COMPILATION_EVENT, info⟩
  | .RenderGeometry handle translation texture =>
    (recordOf before handle).map fun info =>
      .geometryRenderDetails ⟨.GEOMETRY_RENDER_EVENT, info, translation.x, translation.y, texture⟩
  | .ReleaseGeometry handle =>
    (recordOf before handle).map fun info =>
      .geometryReleaseDetails ⟨.GEOMETRY_RELEASE_EVENT, info⟩
  | .EnableScissorRegion enabledFlag =>
    some (.scissortestStatusDetails ⟨.SCISSORTEST_STATUS_EVENT, enabledFlag⟩)
  | .SetScissorRegion region =>
    some (.scissortestRegionDetails
      ⟨.SCISSORTEST_REGION_EVENT, region.x, region.y, region.width, region.height⟩)
  | .LoadTexture image _ =>
    image.map fun _ => .textureLoadDetails ⟨.TEXTURE_LOAD_EVENT, performed.returned⟩
  | .GenerateTexture .. =>
    some (.textureGenerationDetails ⟨.TEXTURE_GENERATION_EVENT, performed.returned⟩)
  | .ReleaseTexture texture => some (.textureReleaseDetails ⟨.TEXTURE_RELEASE_EVENT, texture⟩)
  | .SetTransform transform =>
    some (.transformationUpdateDetails
      (transformationUpdate (transform.getD Matrix4f.Identity)))

/-- The events of some calls, in their order. -/
def eventsOf (before : List Performed) : List Performed → List DeferredEvent
  | [] => []
  | performed :: rest =>
    (performed.event before).toList ++ eventsOf (before ++ [performed]) rest

theorem eventsOf_concat (before calls : List Performed) (last : Performed) :
    eventsOf before (calls ++ [last]) =
      eventsOf before calls ++ (last.event (before ++ calls)).toList := by
  induction calls generalizing before with
  | nil => simp [eventsOf]
  | cons performed rest ih =>
    rw [List.cons_append, eventsOf, eventsOf, ih, List.append_assoc, List.append_assoc]
    rfl

/-! ## Runs -/

structure Trace where
  interface : RenderInterface := {}
  performed : List Performed := []
  popped : List DeferredEvent := []

inductive Operation
  | call (call : Call)
  | pop

/-- A handle is live after the call that has returned it. -/
def Live (trace : Trace) (handle : Address) : Prop := recordOf trace.performed handle ≠ none

/-- What may happen next. `CompileGeometry` asserts that the spans are not empty. -/
def Enabled (trace : Trace) : Operation → Prop
  | .call (.CompileGeometry vertices indices _ _ geometry) =>
    0 < vertices ∧ 0 < indices ∧ trace.interface.geometries geometry = none
  | .call (.RenderGeometry handle _ _) | .call (.ReleaseGeometry handle) => Live trace handle
  | .call _ => True
  | .pop => 0 < queueSize trace.interface.deferredEventsQueue

variable (host : Surroundings)

def Trace.step (trace : Trace) : Operation → Trace
  | .call call =>
    let (returned, interface) := (call.perform host).run trace.interface
    { trace with interface, performed := trace.performed ++ [⟨call, returned⟩] }
  | .pop =>
    let (event, queue) := queuePopEvent trace.interface.deferredEventsQueue
    { trace with
      interface := { trace.interface with deferredEventsQueue := queue }
      popped := trace.popped ++ [event] }

def rendering : System Trace Operation Empty where
  Initial trace := trace = {}
  Enabled := Enabled
  step trace operation := .ok (trace.step host operation)

/-- Popping yields the events of the calls, and no call has read outside its argument. -/
structure Faithful (trace : Trace) : Prop where
  events : trace.popped ++ popEvents (queueSize trace.interface.deferredEventsQueue)
    trace.interface.deferredEventsQueue = eventsOf [] trace.performed
  inside : trace.interface.outside = false

/-- The call sets no transform, and `int` has room for the sizes of a mesh. -/
def Call.Fits : Call → Prop
  | .SetTransform _ => False
  | .CompileGeometry vertices indices .. => vertices < 2 ^ 31 ∧ indices < 2 ^ 31
  | _ => True

/-! ## Geometry behind handles -/

variable {host : Surroundings} {trace : Trace}

/-- What is left of the sizes of a mesh in its record. -/
def GeometryInfo.truncate (info : GeometryInfo) : GeometryInfo :=
  { info with
    numVertices := info.numVertices.bmod (2 ^ 32)
    numIndices := info.numIndices.bmod (2 ^ 32) }

theorem bmod_eq_iff (n : Nat) : (n : Int).bmod (2 ^ 32) = n ↔ n < 2 ^ 31 := by
  constructor
  · intro same
    have below := Int.bmod_lt (x := n) (m := 2 ^ 32) (by decide)
    omega
  · intro fits
    apply Int.bmod_eq_of_le <;> omega

theorem truncate_eq_iff (vertexBuffer indexBuffer : Address) (vertices indices : Nat) :
    GeometryInfo.truncate ⟨vertexBuffer, vertices, indexBuffer, indices⟩ =
        ⟨vertexBuffer, vertices, indexBuffer, indices⟩ ↔
      vertices < 2 ^ 31 ∧ indices < 2 ^ 31 := by
  simp only [GeometryInfo.truncate, GeometryInfo.mk.injEq, true_and, bmod_eq_iff]

theorem recordOf_concat (before : List Performed) (last : Performed) (handle : Address) :
    recordOf (before ++ [last]) handle = (recordOf before handle).or (last.compiledAs handle) := by
  simp [recordOf, List.findSome?_append]

/-- The records are those of the calls that have returned the handles. -/
structure Recorded (trace : Trace) : Prop where
  record : ∀ handle, trace.interface.geometries handle =
    (recordOf trace.performed handle).map GeometryInfo.truncate
  whole : Faithful trace → ∀ handle info, recordOf trace.performed handle = some info →
    info.truncate = info

/-! ## One call -/

theorem faithful_iff : Faithful trace ↔
    trace.popped ++ trace.interface.deferredEventsQueue = eventsOf [] trace.performed ∧
      trace.interface.outside = false := by
  constructor
  · intro faithful
    have events := faithful.events
    rw [popEvents_queueSize] at events
    exact ⟨events, faithful.inside⟩
  · rintro ⟨events, inside⟩
    constructor
    · rw [popEvents_queueSize]
      exact events
    · exact inside

/-- The trace after a call that pushes `sent`, or nothing. -/
def Trace.after (trace : Trace) (interface : RenderInterface) (last : Performed)
    (sent : Option DeferredEvent) : Trace :=
  { trace with
    interface := { interface with
      deferredEventsQueue := trace.interface.deferredEventsQueue ++ sent.toList }
    performed := trace.performed ++ [last] }

/-- A call pushes an event if and only if there should be one, so that an event in a wrong
place cannot make up for another one. -/
theorem faithful_after {interface : RenderInterface} {last : Performed} {sent : Option DeferredEvent}
    (same : (last.event trace.performed).isSome = sent.isSome) :
    Faithful (trace.after interface last sent) ↔
      trace.popped ++ trace.interface.deferredEventsQueue = eventsOf [] trace.performed ∧
        sent = last.event trace.performed ∧ interface.outside = false := by
  rw [faithful_iff, ← and_assoc]
  apply and_congr_left'
  change trace.popped ++ (trace.interface.deferredEventsQueue ++ sent.toList) =
    eventsOf [] (trace.performed ++ [last]) ↔ _
  rw [eventsOf_concat, ← List.append_assoc, List.nil_append]
  cases event : last.event trace.performed with
  | none =>
    rw [event] at same
    obtain rfl := Option.isNone_iff_eq_none.mp (Option.isSome_eq_false_iff.mp same.symm)
    simp
  | some expected =>
    rw [event] at same
    obtain ⟨e, rfl⟩ := Option.isSome_iff_exists.mp same.symm
    rw [Option.toList_some, Option.toList_some, List.append_singleton_inj, Option.some.injEq]

/-- A call that compiles nothing. -/
theorem other_call (recorded : Recorded trace) {call : Call} (returned : Address)
    (sent : Option DeferredEvent) (outside : Bool)
    (step : trace.step host (.call call) =
      trace.after { trace.interface with outside := outside } ⟨call, returned⟩ sent)
    (compiles : ∀ handle, (⟨call, returned⟩ : Performed).compiledAs handle = none)
    (same : ((⟨call, returned⟩ : Performed).event trace.performed).isSome = sent.isSome)
    (stays : outside = false → trace.interface.outside = false)
    (fits : Faithful trace →
      ((sent = (⟨call, returned⟩ : Performed).event trace.performed ∧ outside = false) ↔ call.Fits)) :
    (Faithful (trace.step host (.call call)) ↔ Faithful trace ∧ call.Fits) ∧
      Recorded (trace.step host (.call call)) := by
  have faithful : Faithful (trace.step host (.call call)) ↔ Faithful trace ∧ call.Fits := by
    rw [step, faithful_after same]
    constructor
    · rintro ⟨events, pushed, inside⟩
      have before : Faithful trace := faithful_iff.mpr ⟨events, stays inside⟩
      exact ⟨before, (fits before).mp ⟨pushed, inside⟩⟩
    · rintro ⟨before, fit⟩
      exact ⟨(faithful_iff.mp before).1, (fits before).mpr fit⟩
  refine ⟨faithful, ?_, ?_⟩
  · intro handle
    rw [step]
    change trace.interface.geometries handle = (recordOf (trace.performed ++ [_]) handle).map _
    rw [recordOf_concat, compiles, Option.or_none]
    exact recorded.record handle
  · intro after handle info compiled
    rw [step] at compiled
    change recordOf (trace.performed ++ [_]) handle = some info at compiled
    rw [recordOf_concat, compiles, Option.or_none] at compiled
    exact recorded.whole (faithful.mp after).1 handle info compiled

/-- A call that reads nothing outside and pushes the right event. -/
theorem plain_call (recorded : Recorded trace) {call : Call} (returned : Address)
    (sent : Option DeferredEvent)
    (step : trace.step host (.call call) = trace.after trace.interface ⟨call, returned⟩ sent)
    (compiles : ∀ handle, (⟨call, returned⟩ : Performed).compiledAs handle = none)
    (same : ((⟨call, returned⟩ : Performed).event trace.performed).isSome = sent.isSome)
    (right : Faithful trace → sent = (⟨call, returned⟩ : Performed).event trace.performed)
    (fits : call.Fits) :
    (Faithful (trace.step host (.call call)) ↔ Faithful trace ∧ call.Fits) ∧
      Recorded (trace.step host (.call call)) := by
  apply other_call recorded returned sent _ step compiles same id
  intro faithful
  exact iff_of_true ⟨right faithful, faithful.inside⟩ fits

/-- What a live handle stands for. -/
theorem live_record (recorded : Recorded trace) {handle : Address} (live : Live trace handle) :
    ∃ info, recordOf trace.performed handle = some info ∧
      trace.interface.geometries handle = some info.truncate ∧
      (Faithful trace → info.truncate = info) := by
  obtain ⟨info, compiled⟩ := Option.ne_none_iff_exists'.mp live
  have record := recorded.record handle
  rw [compiled] at record
  exact ⟨info, compiled, record, fun faithful => recorded.whole faithful handle info compiled⟩

theorem readBytes_inside {available size : Nat} (inside : size ≤ available) (rml : RenderInterface) :
    (readBytes available size).run rml = ((), rml) := by
  have enough : decide (available < size) = false := decide_eq_false (Nat.not_lt.mpr inside)
  change ((), { rml with outside := rml.outside || decide (available < size) }) = ((), rml)
  rw [enough, Bool.or_false]

theorem createTexture_run (image : Image) (texture : Address) (rml : RenderInterface) :
    (createTexture image texture).run rml = (texture, rml) := by
  change (fun result => (texture, result.2)) ((readBytes image.size
    (image.width * image.height * 4)).run rml) = _
  rw [readBytes_inside (Nat.le_of_eq image.size_eq.symm)]

/-- Every transform is read past its end. -/
theorem setTransform_run (host : Surroundings) (transform : Option Matrix4f) (rml : RenderInterface) :
    ∃ payload, (setTransform host transform).run rml = ((), { rml with
      deferredEventsQueue := rml.deferredEventsQueue ++ [.transformationUpdateDetails payload]
      outside := true }) := by
  have outside : ((setTransform host transform).run rml).2.outside = true := by
    have behind : (transform.getD Matrix4f.Identity).data.length ≤ 16 :=
      Nat.le_of_eq (Matrix4f.length_data _)
    change (_ || decide ((transform.getD Matrix4f.Identity).data.length ≤ 16)) = true
    rw [decide_eq_true behind, Bool.or_true]
  have run : (setTransform host transform).run rml = ((), { rml with
      deferredEventsQueue := rml.deferredEventsQueue ++ [.transformationUpdateDetails _]
      outside := ((setTransform host transform).run rml).2.outside }) := rfl
  exact ⟨_, run.trans (by rw [outside])⟩

/-- The buffers are copied from inside the spans if `int` has room for their sizes. -/
theorem rawBufferSizeInBytes_le {count : Nat} (fits : count < 2 ^ 31) (size : Nat) :
    rawBufferSizeInBytes (int count) size ≤ count * size := by
  have whole : int count = count := (bmod_eq_iff count).mpr fits
  have unsigned : (count : Int) * size % 2 ^ 64 = ((count * size % 2 ^ 64 : Nat) : Int) := by
    push_cast
    rfl
  rw [rawBufferSizeInBytes, whole, unsigned, Int.toNat_natCast]
  exact Nat.mod_le _ _

/-- What a compilation does: it pushes the record as it is stored, and it reads nothing outside if
the counts fit. -/
theorem compile_run (host : Surroundings) (trace : Trace) {vertices indices : Nat}
    {vertexBuffer indexBuffer geometry : Address} {info : GeometryInfo}
    (passed : info = ⟨vertexBuffer, vertices, indexBuffer, indices⟩) {call : Call}
    (compiles : call = .CompileGeometry vertices indices vertexBuffer indexBuffer geometry) :
    ∃ interface : RenderInterface,
      trace.step host (.call call) = trace.after interface ⟨call, geometry⟩
        (some (.geometryCompilationDetails ⟨.GEOMETRY_COMPILATION_EVENT, info.truncate⟩)) ∧
      interface.geometries =
        Function.update trace.interface.geometries geometry (some info.truncate) ∧
      (interface.outside = false → trace.interface.outside = false) ∧
      (call.Fits → trace.interface.outside = false → interface.outside = false) := by
  subst passed compiles
  refine ⟨_, rfl, rfl, ?_, ?_⟩
  · intro stays
    exact (Bool.or_eq_false_iff.mp (Bool.or_eq_false_iff.mp stays).1).1
  · rintro ⟨verticesFit, indicesFit⟩ before
    change (trace.interface.outside || decide (vertices * host.sizeofVertex < _) ||
      decide (indices * 4 < _)) = false
    rw [before, Bool.false_or, Bool.or_eq_false_iff, decide_eq_false_iff_not,
      decide_eq_false_iff_not]
    exact ⟨Nat.not_lt.mpr (rawBufferSizeInBytes_le verticesFit _),
      Nat.not_lt.mpr (rawBufferSizeInBytes_le indicesFit _)⟩

theorem compile_call (recorded : Recorded trace) {vertices indices : Nat}
    {vertexBuffer indexBuffer geometry : Address}
    (fresh : trace.interface.geometries geometry = none) :
    let call := Call.CompileGeometry vertices indices vertexBuffer indexBuffer geometry
    (Faithful (trace.step host (.call call)) ↔ Faithful trace ∧ call.Fits) ∧
      Recorded (trace.step host (.call call)) := by
  intro call
  let info : GeometryInfo := ⟨vertexBuffer, vertices, indexBuffer, indices⟩
  let last : Performed := ⟨call, geometry⟩
  let sent : DeferredEvent :=
    .geometryCompilationDetails ⟨.GEOMETRY_COMPILATION_EVENT, info.truncate⟩
  obtain ⟨interface, step, geometries, inside⟩ : ∃ interface : RenderInterface,
      trace.step host (.call call) = trace.after interface last (some sent) ∧ _ :=
    compile_run host trace (rfl : info = _) rfl
  have compiles (handle : Address) :
      last.compiledAs handle = if geometry = handle then some info else none := rfl
  have event : last.event trace.performed =
      some (.geometryCompilationDetails ⟨.GEOMETRY_COMPILATION_EVENT, info⟩) := by
    change (last.compiledAs geometry).map _ = _
    rw [compiles, if_pos rfl]
    rfl
  have fits : info.truncate = info ↔ call.Fits :=
    truncate_eq_iff vertexBuffer indexBuffer vertices indices
  have faithful : Faithful (trace.step host (.call call)) ↔ Faithful trace ∧ call.Fits := by
    have pushes : (last.event trace.performed).isSome = (some sent).isSome := by
      rw [event, Option.isSome_some, Option.isSome_some]
    rw [step, faithful_after pushes, event, faithful_iff, ← fits]
    constructor
    · rintro ⟨events, pushed, stays⟩
      have payload := DeferredEvent.geometryCompilationDetails.inj (Option.some.inj pushed)
      exact ⟨⟨events, inside.1 stays⟩, (GeometryEvent.mk.inj payload).2⟩
    · rintro ⟨⟨events, before⟩, exact_⟩
      have pushed : sent = .geometryCompilationDetails ⟨.GEOMETRY_COMPILATION_EVENT, info⟩ :=
        congrArg _ (congrArg _ exact_)
      exact ⟨events, congrArg some pushed, inside.2 (fits.mp exact_) before⟩
  refine ⟨faithful, ?_, ?_⟩
  · intro handle
    rw [step]
    change interface.geometries handle = (recordOf (trace.performed ++ [last]) handle).map _
    rw [recordOf_concat, compiles, geometries]
    by_cases new : geometry = handle
    · subst new
      have unknown := recorded.record geometry
      rw [fresh] at unknown
      rw [Option.map_eq_none_iff.mp unknown.symm, if_pos rfl, Function.update_self]
      rfl
    · rw [if_neg new, Option.or_none, Function.update_of_ne (Ne.symm new)]
      exact recorded.record handle
  · intro after handle other compiled
    obtain ⟨before, fit⟩ := faithful.mp after
    rw [step] at compiled
    change recordOf (trace.performed ++ [last]) handle = some other at compiled
    rw [recordOf_concat, compiles, Option.or_eq_some_iff] at compiled
    obtain earlier | ⟨-, now⟩ := compiled
    · exact recorded.whole before handle other earlier
    · by_cases new : geometry = handle
      · rw [if_pos new, Option.some.injEq] at now
        rw [← now]
        exact fits.mpr fit
      · rw [if_neg new] at now
        exact absurd now (Option.some_ne_none other).symm

/-- A call through a live handle finds the record. -/
theorem dereference_run {geometry : Address} {info : GeometryInfo} {rml : RenderInterface}
    (record : rml.geometries geometry = some info) (k : GeometryInfo → Action Unit) :
    (dereference geometry k).run rml = (k info).run rml := by
  unfold dereference
  rw [StateT.run_bind, StateT.run_get, pure_bind, record]

theorem step_of_run {call : Call} {returned : Address} {interface : RenderInterface}
    (run : (call.perform host).run trace.interface = (returned, interface)) :
    trace.step host (.call call) = { trace with
      interface := interface
      performed := trace.performed ++ [⟨call, returned⟩] } := by
  simp only [Trace.step, run]

/-- A call that takes a handle of geometry. -/
theorem live_call (recorded : Recorded trace) {handle : Address} (live : Live trace handle)
    {call : Call} (details : GeometryInfo → DeferredEvent)
    (performs : call.perform host =
      do dereference handle (fun info => push (details info)); pure 0)
    (expects : (⟨call, 0⟩ : Performed).event trace.performed =
      (recordOf trace.performed handle).map details)
    (compiles : ∀ handle, (⟨call, 0⟩ : Performed).compiledAs handle = none) (fits : call.Fits) :
    (Faithful (trace.step host (.call call)) ↔ Faithful trace ∧ call.Fits) ∧
      Recorded (trace.step host (.call call)) := by
  obtain ⟨info, compiled, record, whole⟩ := live_record recorded live
  have run : (call.perform host).run trace.interface = (0, { trace.interface with
      deferredEventsQueue := trace.interface.deferredEventsQueue ++ [details info.truncate] }) := by
    rw [performs]
    change Prod.map (fun _ => 0) id ((dereference handle _).run trace.interface) = _
    rw [dereference_run record]
    rfl
  apply plain_call recorded 0 (some (details info.truncate)) (step_of_run run) compiles
  · rw [expects, compiled]
    rfl
  · intro faithful
    rw [expects, compiled, whole faithful]
    rfl
  · exact fits

/-- A call that creates a texture and returns it. -/
theorem texture_call (recorded : Recorded trace) {call : Call} {image : Image} {texture : Address}
    (details : Address → DeferredEvent)
    (performs : call.perform host = do
      let wgpuTexture ← createTexture image texture
      push (details wgpuTexture)
      pure wgpuTexture)
    (expects : (⟨call, texture⟩ : Performed).event trace.performed = some (details texture))
    (compiles : ∀ handle, (⟨call, texture⟩ : Performed).compiledAs handle = none)
    (fits : call.Fits) :
    (Faithful (trace.step host (.call call)) ↔ Faithful trace ∧ call.Fits) ∧
      Recorded (trace.step host (.call call)) := by
  have run : (call.perform host).run trace.interface = (texture, { trace.interface with
      deferredEventsQueue := trace.interface.deferredEventsQueue ++ [details texture] }) := by
    rw [performs, StateT.run_bind, createTexture_run]
    rfl
  apply plain_call recorded texture (some (details texture)) (step_of_run run) compiles
  · rw [expects]
  · exact fun _ => expects.symm
  · exact fits

theorem call_faithful (recorded : Recorded trace) {call : Call}
    (enabled : Enabled trace (.call call)) :
    (Faithful (trace.step host (.call call)) ↔ Faithful trace ∧ call.Fits) ∧
      Recorded (trace.step host (.call call)) := by
  have nothing (handle : Address) : (none : Option GeometryInfo) = none := rfl
  cases call with
  | CompileGeometry vertices indices vertexBuffer indexBuffer geometry =>
    exact compile_call recorded enabled.2.2
  | RenderGeometry handle translation texture =>
    exact live_call recorded enabled _ rfl rfl nothing trivial
  | ReleaseGeometry handle => exact live_call recorded enabled _ rfl rfl nothing trivial
  | EnableScissorRegion enabledFlag =>
    exact plain_call recorded 0 _ rfl nothing rfl (fun _ => rfl) trivial
  | SetScissorRegion region => exact plain_call recorded 0 _ rfl nothing rfl (fun _ => rfl) trivial
  | LoadTexture image texture =>
    cases image with
    | none =>
      have run : ((Call.LoadTexture none texture).perform host).run trace.interface =
          (0, { trace.interface with
            deferredEventsQueue := trace.interface.deferredEventsQueue ++ [] }) := by
        rw [List.append_nil]
        rfl
      exact plain_call recorded 0 none (step_of_run run) nothing rfl (fun _ => rfl) trivial
    | some image => exact texture_call recorded _ rfl rfl nothing trivial
  | GenerateTexture source texture => exact texture_call recorded _ rfl rfl nothing trivial
  | ReleaseTexture texture => exact plain_call recorded 0 _ rfl nothing rfl (fun _ => rfl) trivial
  | SetTransform transform =>
    obtain ⟨payload, run⟩ := setTransform_run host transform trace.interface
    have performs : ((Call.SetTransform transform).perform host).run trace.interface =
        (0, { trace.interface with
          deferredEventsQueue :=
            trace.interface.deferredEventsQueue ++ [.transformationUpdateDetails payload]
          outside := true }) := by
      change Prod.map (fun _ => 0) id ((setTransform host transform).run trace.interface) = _
      rw [run]
      rfl
    apply other_call recorded 0 (some (.transformationUpdateDetails payload)) true
      (step_of_run performs) nothing
    · rfl
    · exact fun inside => absurd inside.symm Bool.false_ne_true
    · intro _
      exact iff_of_false (fun sent => Bool.false_ne_true sent.2.symm) id

/-! ## Whole runs -/

theorem pop_faithful (waiting : Enabled trace .pop) :
    (Faithful (trace.step host .pop) ↔ Faithful trace) ∧
      (Recorded trace → Recorded (trace.step host .pop)) := by
  have faithful : Faithful (trace.step host .pop) ↔ Faithful trace := by
    rw [faithful_iff, faithful_iff]
    cases queue : trace.interface.deferredEventsQueue with
    | nil =>
      rw [Enabled, queue] at waiting
      exact absurd waiting (Nat.lt_irrefl 0)
    | cons event rest =>
      have step : trace.step host .pop = { trace with
          interface := { trace.interface with deferredEventsQueue := rest }
          popped := trace.popped ++ [event] } := by
        simp only [Trace.step, queue, queuePopEvent]
      rw [step]
      change (trace.popped ++ [event]) ++ rest = eventsOf [] trace.performed ∧ _ ↔ _
      rw [← List.append_cons]
  refine ⟨faithful, fun recorded => ⟨recorded.record, ?_⟩⟩
  intro after
  exact recorded.whole (faithful.mp after)

/-- After calls and pops in any order: the events are those of the calls, and no read has
left its argument, if and only if every call has been one that fits. -/
theorem events_faithful_iff {operations : List Operation}
    (run : (rendering host).Run {} operations trace) :
    Faithful trace ↔ ∀ call, .call call ∈ operations → call.Fits := by
  have both : Recorded trace ∧
      (Faithful trace ↔ ∀ call, .call call ∈ operations → call.Fits) := by
    induction run with
    | start =>
      refine ⟨⟨fun _ => rfl, fun _ _ _ compiled => absurd compiled.symm (Option.some_ne_none _)⟩, ?_⟩
      exact iff_of_true ⟨rfl, rfl⟩ (fun _ member => absurd member List.not_mem_nil)
    | @step before after operations operation earlier enabled stepped ih =>
      obtain ⟨recorded, faithful⟩ := ih
      obtain rfl : before.step host operation = after := Except.ok.inj stepped
      cases operation with
      | call call =>
        obtain ⟨next, recorded'⟩ :
            (Faithful (before.step host (.call call)) ↔ Faithful before ∧ call.Fits) ∧
              Recorded (before.step host (.call call)) := call_faithful recorded enabled
        refine ⟨recorded', next.trans ?_⟩
        rw [faithful]
        constructor
        · rintro ⟨fit, now⟩ other member
          obtain member | member := List.mem_append.mp member
          · exact fit other member
          · cases List.mem_singleton.mp member
            exact now
        · intro fit
          exact ⟨fun other member => fit other (List.mem_append_left _ member),
            fit call (List.mem_append_right _ (List.mem_singleton_self _))⟩
      | pop =>
        obtain ⟨next, recorded'⟩ : (Faithful (before.step host .pop) ↔ Faithful before) ∧
            (Recorded before → Recorded (before.step host .pop)) := pop_faithful enabled
        refine ⟨recorded' recorded, next.trans ?_⟩
        simp [faithful]
  exact both.2

/-- Vertices of 20 bytes, and a pattern behind every matrix. -/
def noted : Surroundings where
  sizeofVertex := 20
  behind _ := 0xDEADBEEF

/-- A mesh that is compiled, drawn, and popped in part. -/
theorem events_faithful_iff_mesh :
    ∃ trace, (rendering noted).Run {} [.call (.CompileGeometry 4 6 100 200 300),
      .call (.RenderGeometry 300 ⟨0x3F800000, 0⟩ 7), .pop] trace ∧ Faithful trace := by
  have compiled : (rendering noted).Run {} [.call (.CompileGeometry 4 6 100 200 300)] _ :=
    .step .start ⟨by decide, by decide, rfl⟩ rfl
  have drawn : (rendering noted).Run {} [.call (.CompileGeometry 4 6 100 200 300),
      .call (.RenderGeometry 300 ⟨0x3F800000, 0⟩ 7)] _ :=
    .step compiled (Option.some_ne_none _) rfl
  have popped : (rendering noted).Run {} [.call (.CompileGeometry 4 6 100 200 300),
      .call (.RenderGeometry 300 ⟨0x3F800000, 0⟩ 7), .pop] _ :=
    .step drawn (Nat.zero_lt_succ 1) rfl
  refine ⟨_, popped, (events_faithful_iff popped).mpr ?_⟩
  intro call member
  simp only [List.mem_cons, Operation.call.injEq, reduceCtorEq, List.not_mem_nil, or_false] at member
  obtain rfl | rfl := member
  · exact ⟨by decide, by decide⟩
  · trivial

/-- Sixteen entries that are all different. -/
def distinctEntries : Matrix4f where
  data := [0, 1, 2, 3, 4, 5, 6, 7, 8, 9, 10, 11, 12, 13, 14, 15]
  length_data := rfl

/-- The entry at index 3 is lost, and what lies behind the matrix takes the last place. -/
theorem transform_skips_entry :
    ∃ trace, (rendering noted).Run {} [.call (.SetTransform (some distinctEntries))] trace ∧
      trace.interface.deferredEventsQueue = [.transformationUpdateDetails
        ⟨.TRANSFORMATION_UPDATE_EVENT, 0, 1, 2, 4, 5, 6, 7, 8, 9, 10, 11, 12, 13, 14, 15,
          0xDEADBEEF⟩] ∧
      trace.interface.outside = true ∧ ¬Faithful trace := by
  refine ⟨_, .step .start trivial rfl, rfl, rfl, ?_⟩
  intro faithful
  exact Bool.false_ne_true faithful.inside.symm

end EvoRuntime.Rml
