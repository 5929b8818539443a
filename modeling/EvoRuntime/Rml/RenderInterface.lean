import Mathlib.Algebra.Group.Nat.Defs
import Mathlib.Algebra.Order.Ring.Int
import Mathlib.Tactic.Common

/-!
# Render commands as events

`RenderInterface_WebGPU` turns the calls that RmlUi makes into events of a queue, from
which Lua pops them. Buffers and textures are created on the device at once; the device,
`new` and `stbi_load` are left open, and a call carries what it gets from them. A read
that leaves its argument is recorded, and yields whatever lies there.
-/
namespace EvoRuntime.Rml

/-! ## Data -/

/-- A pointer, or a handle that stands for one. -/
abbrev Address := Nat

/-- A `float` is only copied, so it is given by its bits. -/
abbrev FloatBits := BitVec 32

structure Vector2f where
  x : FloatBits
  y : FloatBits
  deriving DecidableEq

structure Rectanglei where
  x : Int
  y : Int
  width : Int
  height : Int
  deriving DecidableEq

structure Matrix4f where
  data : List FloatBits
  length_data : data.length = 16
  deriving DecidableEq

def Matrix4f.Identity : Matrix4f where
  data := [0x3F800000, 0, 0, 0, 0, 0x3F800000, 0, 0, 0, 0, 0x3F800000, 0, 0, 0, 0, 0x3F800000]
  length_data := rfl

/-- The size of an RGBA image and the number of its bytes. -/
structure Image where
  width : Nat
  height : Nat
  size : Nat
  size_eq : size = width * height * 4

/-- The conversion from `size_t` to `int`. -/
def int (n : Nat) : Int := Int.bmod n (2 ^ 32)

/-- The types of the events that a render interface or the queue itself writes. -/
inductive EventType
  | ERROR_EVENT
  | GEOMETRY_COMPILATION_EVENT
  | GEOMETRY_RENDER_EVENT
  | GEOMETRY_RELEASE_EVENT
  | SCISSORTEST_STATUS_EVENT
  | SCISSORTEST_REGION_EVENT
  | TEXTURE_LOAD_EVENT
  | TEXTURE_GENERATION_EVENT
  | TEXTURE_RELEASE_EVENT
  | TRANSFORMATION_UPDATE_EVENT
  deriving DecidableEq

structure GeometryInfo where
  vertexBuffer : Address
  numVertices : Int
  indexBuffer : Address
  numIndices : Int
  deriving DecidableEq

/-- `geometry_compilation_event_t` and `geometry_release_event_t`. -/
structure GeometryEvent where
  type : EventType
  compiledGeometry : GeometryInfo
  deriving DecidableEq

structure GeometryRenderEvent where
  type : EventType
  compiledGeometry : GeometryInfo
  translateU : FloatBits
  translateV : FloatBits
  texture : Address
  deriving DecidableEq

structure ScissortestStatusEvent where
  type : EventType
  enabledFlag : Bool
  deriving DecidableEq

structure ScissortestRegionEvent where
  type : EventType
  u : Int
  v : Int
  width : Int
  height : Int
  deriving DecidableEq

/-- `texture_load_event_t`, `texture_generation_event_t` and `texture_release_event_t`. -/
structure TextureEvent where
  type : EventType
  texture : Address
  deriving DecidableEq

structure TransformationUpdateEvent where
  type : EventType
  x1 : FloatBits
  x2 : FloatBits
  x3 : FloatBits
  x4 : FloatBits
  y1 : FloatBits
  y2 : FloatBits
  y3 : FloatBits
  y4 : FloatBits
  z1 : FloatBits
  z2 : FloatBits
  z3 : FloatBits
  z4 : FloatBits
  w1 : FloatBits
  w2 : FloatBits
  w3 : FloatBits
  w4 : FloatBits
  deriving DecidableEq

structure ErrorEvent where
  type : EventType
  code : Nat
  deriving DecidableEq

/-- The members of `deferred_event_t` for these types. -/
inductive DeferredEvent
  | errorDetails (payload : ErrorEvent)
  | geometryCompilationDetails (payload : GeometryEvent)
  | geometryRenderDetails (payload : GeometryRenderEvent)
  | geometryReleaseDetails (payload : GeometryEvent)
  | scissortestStatusDetails (payload : ScissortestStatusEvent)
  | scissortestRegionDetails (payload : ScissortestRegionEvent)
  | textureLoadDetails (payload : TextureEvent)
  | textureGenerationDetails (payload : TextureEvent)
  | textureReleaseDetails (payload : TextureEvent)
  | transformationUpdateDetails (payload : TransformationUpdateEvent)
  deriving DecidableEq

/-! ## The queue -/

def ERROR_POPPING_EMPTY_QUEUE : Nat := 1

abbrev Queue := List DeferredEvent

def queueSize (queue : Queue) : Nat := queue.length

def queuePopEvent : Queue → DeferredEvent × Queue
  | [] => (.errorDetails ⟨.ERROR_EVENT, ERROR_POPPING_EMPTY_QUEUE⟩, [])
  | event :: queue => (event, queue)

/-- The events of that many calls of `queue_pop_event`. -/
def popEvents : Nat → Queue → List DeferredEvent
  | 0, _ => []
  | n + 1, queue => (queuePopEvent queue).1 :: popEvents n (queuePopEvent queue).2

theorem popEvents_queueSize (queue : Queue) : popEvents (queueSize queue) queue = queue := by
  induction queue with
  | nil => rfl
  | cons event queue ih => exact congrArg (event :: ·) ih

/-! ## The interface -/

structure RenderInterface where
  /-- The records behind the handles of compiled geometry. -/
  geometries : Address → Option GeometryInfo := fun _ => none
  deferredEventsQueue : Queue := []
  /-- Some read has left its argument. -/
  outside : Bool := false

/-- What the calls depend on. -/
structure Surroundings where
  /-- `sizeof(Rml::Vertex)` -/
  sizeofVertex : Nat
  /-- The `float` that lies behind a matrix. -/
  behind : Matrix4f → FloatBits

/-- A call, with what the functions outside give to it. -/
inductive Call
  /-- Of the two spans only their sizes count here. `buffers` are the new buffers for
  them, and `geometry` is the new record. -/
  | CompileGeometry (vertices indices : Nat) (vertexBuffer indexBuffer geometry : Address)
  | RenderGeometry (geometry : Address) (translation : Vector2f) (texture : Address)
  | ReleaseGeometry (geometry : Address)
  | EnableScissorRegion (enabledFlag : Bool)
  | SetScissorRegion (region : Rectanglei)
  /-- The image is what `stbi_load` returns. -/
  | LoadTexture (image : Option Image) (texture : Address)
  | GenerateTexture (source : Image) (texture : Address)
  | ReleaseTexture (texture : Address)
  | SetTransform (transform : Option Matrix4f)

abbrev Action (α : Type) := StateM RenderInterface α

def push (event : DeferredEvent) : Action Unit :=
  modify fun rml => { rml with deferredEventsQueue := rml.deferredEventsQueue ++ [event] }

/-- A read of the first `size` bytes of an argument that has `available` ones. -/
def readBytes (available size : Nat) : Action Unit :=
  modify fun rml => { rml with outside := rml.outside || decide (available < size) }

variable (host : Surroundings)

/-- `transform[i]`. -/
def readEntry (transform : Matrix4f) (i : Nat) : Action FloatBits := do
  modify fun rml => { rml with outside := rml.outside || decide (transform.data.length ≤ i) }
  pure (transform.data[i]?.getD (host.behind transform))

/-- `num * size` as a `size_t`. -/
def rawBufferSizeInBytes (num : Int) (size : Nat) : Nat := (num * size % 2 ^ 64).toNat

/-- `CreateVertexBuffer` and `CreateIndexBuffer`, for a span of `count` elements. -/
def createBuffer (count : Nat) (num : Int) (size : Nat) (buffer : Address) : Action Address := do
  readBytes (count * size) (rawBufferSizeInBytes num size)
  pure buffer

def createTexture (image : Image) (texture : Address) : Action Address := do
  readBytes image.size (image.width * image.height * 4)
  pure texture

def compileGeometry (vertices indices : Nat) (vertexBuffer indexBuffer geometry : Address) :
    Action Address := do
  let vertexBuffer ← createBuffer vertices (int vertices) host.sizeofVertex vertexBuffer
  let indexBuffer ← createBuffer indices (int indices) 4 indexBuffer
  let info : GeometryInfo := ⟨vertexBuffer, int vertices, indexBuffer, int indices⟩
  modify fun rml => { rml with geometries := Function.update rml.geometries geometry (some info) }
  push (.geometryCompilationDetails {
    type := .GEOMETRY_COMPILATION_EVENT
    compiledGeometry := info })
  pure geometry

/-- `*geometry`; nothing is known of a record that was never made. -/
def dereference (geometry : Address) (k : GeometryInfo → Action Unit) : Action Unit := do
  match (← get).geometries geometry with
  | some info => k info
  | none => modify fun rml => { rml with outside := true }

def renderGeometry (geometry : Address) (translation : Vector2f) (texture : Address) : Action Unit :=
  dereference geometry fun info =>
    push (.geometryRenderDetails {
      type := .GEOMETRY_RENDER_EVENT
      compiledGeometry := info
      translateU := translation.x
      translateV := translation.y
      texture := texture })

def releaseGeometry (geometry : Address) : Action Unit :=
  dereference geometry fun info =>
    push (.geometryReleaseDetails {
      type := .GEOMETRY_RELEASE_EVENT
      compiledGeometry := info })

def enableScissorRegion (enabledFlag : Bool) : Action Unit :=
  push (.scissortestStatusDetails {
    type := .SCISSORTEST_STATUS_EVENT
    enabledFlag := enabledFlag })

def setScissorRegion (region : Rectanglei) : Action Unit :=
  push (.scissortestRegionDetails {
    type := .SCISSORTEST_REGION_EVENT
    u := region.x
    v := region.y
    width := region.width
    height := region.height })

/-- `false` is the handle 0. -/
def loadTexture (image : Option Image) (texture : Address) : Action Address := do
  match image with
  | none => pure 0
  | some image => do
    let wgpuTexture ← createTexture image texture
    push (.textureLoadDetails { type := .TEXTURE_LOAD_EVENT, texture := wgpuTexture })
    pure wgpuTexture

def generateTexture (source : Image) (texture : Address) : Action Address := do
  let wgpuTexture ← createTexture source texture
  push (.textureGenerationDetails { type := .TEXTURE_GENERATION_EVENT, texture := wgpuTexture })
  pure wgpuTexture

def releaseTexture (texture : Address) : Action Unit :=
  push (.textureReleaseDetails { type := .TEXTURE_RELEASE_EVENT, texture := texture })

def setTransform (transform : Option Matrix4f) : Action Unit := do
  let transform := transform.getD Matrix4f.Identity
  let x1 ← readEntry host transform 0
  let x2 ← readEntry host transform 1
  let x3 ← readEntry host transform 2
  let x4 ← readEntry host transform 4
  let y1 ← readEntry host transform 5
  let y2 ← readEntry host transform 6
  let y3 ← readEntry host transform 7
  let y4 ← readEntry host transform 8
  let z1 ← readEntry host transform 9
  let z2 ← readEntry host transform 10
  let z3 ← readEntry host transform 11
  let z4 ← readEntry host transform 12
  let w1 ← readEntry host transform 13
  let w2 ← readEntry host transform 14
  let w3 ← readEntry host transform 15
  let w4 ← readEntry host transform 16
  push (.transformationUpdateDetails {
    type := .TRANSFORMATION_UPDATE_EVENT
    x1 := x1, x2 := x2, x3 := x3, x4 := x4
    y1 := y1, y2 := y2, y3 := y3, y4 := y4
    z1 := z1, z2 := z2, z3 := z3, z4 := z4
    w1 := w1, w2 := w2, w3 := w3, w4 := w4 })

/-- The handle that the call returns, or 0. -/
def Call.perform : Call → Action Address
  | .CompileGeometry vertices indices vertexBuffer indexBuffer geometry =>
    compileGeometry host vertices indices vertexBuffer indexBuffer geometry
  | .RenderGeometry geometry translation texture =>
    do renderGeometry geometry translation texture; pure 0
  | .ReleaseGeometry geometry => do releaseGeometry geometry; pure 0
  | .EnableScissorRegion enabledFlag => do enableScissorRegion enabledFlag; pure 0
  | .SetScissorRegion region => do setScissorRegion region; pure 0
  | .LoadTexture image texture => loadTexture image texture
  | .GenerateTexture source texture => generateTexture source texture
  | .ReleaseTexture texture => do releaseTexture texture; pure 0
  | .SetTransform transform => do setTransform host transform; pure 0

end EvoRuntime.Rml
