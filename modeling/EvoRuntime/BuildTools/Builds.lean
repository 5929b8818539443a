import EvoRuntime.BuildTools.BuildTarget
import EvoRuntime.BuildTools.NinjaManifest
import EvoRuntime.Library.Schedules

/-!
# Builds

What happens when Ninja runs the build edges of a generated file.

## Main result

`generated_builds`: whatever order Ninja runs the build edges in, it can go on until every source
has been compiled once and then all has been linked, and it does not stop before that.

## Proof strategy

The file has a closed form (`GenerateNinjaFile_eq`), of which each part can be written as it is
(`Printable`). Each build edge is read as a job. All compilations are ready at the start, and
linking needs what each of them gives, so that the rest follows from the rules for schedules.
-/
namespace EvoRuntime.BuildTools

open Lua Library

/-! ## Words -/

variable {s t : LuaString}

def isWordCharacter (c : UInt8) : Bool := isPathCharacter c && c ≠ blank && c ≠ dollar

/-- A text that is one word to Ninja and to the linker. -/
structure IsWord (s : LuaString) : Prop where
  nonempty : s ≠ []
  characters : s.all isWordCharacter = true

instance (s : LuaString) : Decidable (IsWord s) :=
  decidable_of_iff (s ≠ [] ∧ s.all isWordCharacter = true)
    ⟨fun ⟨nonempty, characters⟩ => ⟨nonempty, characters⟩,
      fun isWord => ⟨isWord.nonempty, isWord.characters⟩⟩

/-- What is not in a word. -/
theorem IsWord.not_mem (isWord : IsWord s) {c : UInt8} (separates : isWordCharacter c = false) : c ∉ s := by
  intro inside
  have allowed := List.all_eq_true.mp isWord.characters c inside
  rw [separates] at allowed
  cases allowed

theorem IsWord.append (left : IsWord s) (right : IsWord t) : IsWord (s ++ t) where
  nonempty := List.append_ne_nil_of_left_ne_nil left.nonempty t
  characters := by rw [List.all_append, left.characters, right.characters, Bool.and_self]

theorem IsWord.isPaths (isWord : IsWord s) : IsPaths s := by
  refine List.all_eq_true.mpr fun c inside => ?_
  have allowed := List.all_eq_true.mp isWord.characters c inside
  rw [isWordCharacter, Bool.and_eq_true, Bool.and_eq_true] at allowed
  exact allowed.1.1

theorem IsWord.isValue (isWord : IsWord s) : IsValue s where
  oneLine := isWord.isPaths.oneLine
  complete := fun last => isWord.not_mem (by decide) (List.mem_of_getLast? last)

theorem words_word (isWord : IsWord s) : words s = [s] := by
  have alone : s.splitOn blank = [s] :=
    List.splitOnP_eq_singleton fun c inside => beq_false_of_ne fun same =>
      isWord.not_mem (by decide) (same ▸ inside)
  rw [words, alone]
  exact List.filter_cons_of_pos (decide_eq_true isWord.nonempty)

theorem words_words {strings : List LuaString} (each : ∀ s ∈ strings, IsWord s) :
    words (table_concat strings blank) = strings := by
  rw [words_table_concat, List.flatMap_congr fun s member => words_word (each s member)]
  exact List.flatMap_singleton' strings

theorem isValue_append (left : OneLine s) (complete : s.getLast? ≠ some dollar) (right : IsValue t) :
    IsValue (s ++ t) where
  oneLine := by simp [left, right.oneLine]
  complete := complete_behind complete right

/-! ## Files that can be printed -/

/-- Everything in the file can be written as it is. -/
structure Printable (file : NinjaFile) : Prop where
  values : ∀ name value, file.variables_.values.lookup name = some value → IsName name ∧ IsValue value
  ruleDeclarations : ∀ rule ∈ file.ruleDeclarations, rule.WellFormed
  buildEdges : ∀ edge ∈ file.buildEdges, edge.WellFormed

namespace Printable

variable {file : NinjaFile}

theorem new : Printable {} where
  values := fun name value found => absurd (found.symm.trans (AList.lookup_empty name)) (by simp)
  ruleDeclarations := List.forall_mem_nil _
  buildEdges := List.forall_mem_nil _

theorem AddVariable (printable : Printable file) {name value : LuaString} (isName : IsName name)
    (isValue : IsValue value) : Printable (file.AddVariable name value) where
  values other found := by
    intro lookup
    by_cases same : other = name
    · subst same
      obtain rfl := Option.some.inj ((AList.lookup_insert _).symm.trans lookup)
      exact ⟨isName, isValue⟩
    · exact printable.values other found ((AList.lookup_insert_ne same).symm.trans lookup)
  ruleDeclarations := printable.ruleDeclarations
  buildEdges := printable.buildEdges

theorem AddRule (printable : Printable file) {rule : BuildRule} (wellFormed : rule.WellFormed) :
    Printable (file.AddRule rule) where
  values := printable.values
  ruleDeclarations := List.forall_mem_append.mpr
    ⟨printable.ruleDeclarations, List.forall_mem_singleton.mpr wellFormed⟩
  buildEdges := printable.buildEdges

theorem wellFormed (printable : Printable file) : file.WellFormed where
  variables_ := by
    intro field member
    obtain ⟨name, -, rfl⟩ := List.mem_map.mp member
    exact printable.values name.1 _ (Option.some_get _).symm
  ruleDeclarations := printable.ruleDeclarations
  buildEdges := printable.buildEdges

end Printable

/-! ## The generated file -/

namespace BuildTarget

open C_BuildTools

variable (self : BuildTarget) (host : Surroundings)

/-- The build edge that is added for a source. -/
def sourceEdge (rule extension : LuaString) (variableOverrides : List (LuaString × LuaString))
    (sourceFilePath : LuaString) : BuildEdge where
  outputs := self.outputFile extension sourceFilePath
  inputs := [rule ++ ascii " " ++ sourceFilePath]
  variableOverrides := variableOverrides

theorem foldl_addSource (rule extension : LuaString)
    (variableOverrides : List (LuaString × LuaString)) (sources : List LuaString)
    (generation : Generation) :
    sources.foldl (self.addSource rule extension variableOverrides) generation =
      { ninjaFile :=
          { generation.ninjaFile with
            buildEdges := generation.ninjaFile.buildEdges ++
              sources.map (self.sourceEdge rule extension variableOverrides) }
        objectFiles := generation.objectFiles ++ sources.map (self.outputFile extension) } := by
  induction sources generalizing generation with
  | nil => simp
  | cons source sources ih =>
    rw [List.foldl_cons, ih]
    simp [addSource, NinjaFile.AddBuildEdge, sourceEdge]

/-- The bindings of a native source. -/
def overrides : List (LuaString × LuaString) :=
  host.pairs [(ascii "includes", self.includes host), (ascii "defines", self.GetDefines host)]

/-- The build edges of all sources. -/
def sourceEdges : List BuildEdge :=
  self.cppSources.map
      (self.sourceEdge (ascii "compile") (OBJECT_FILE_EXTENSION host.os) (self.overrides host)) ++
    self.cSources.map
      (self.sourceEdge (ascii "ccompile") (OBJECT_FILE_EXTENSION host.os) (self.overrides host)) ++
    self.luaSources.map (self.sourceEdge (ascii "bcsave") (ascii "c") [])

/-- All that is made of the sources. -/
def objects : List LuaString :=
  (self.cppSources ++ self.cSources).map (self.outputFile (OBJECT_FILE_EXTENSION host.os)) ++
    self.luaSources.map (self.outputFile (ascii "c"))

/-- All that is linked. -/
def linked : List LuaString := self.objects host ++ self.staticLibraries.map self.libraryPath

def linkEdge : BuildEdge where
  outputs := self.libraryPath self.OUTPUT_FILE_NAME
  inputs := [ascii "link " ++ table_concat (self.linked host) blank]
  variableOverrides := [(ascii "libs", self.sharedLibraryFlags host)]

/-- The file as it is before the sources are processed. -/
def preamble : NinjaFile :=
  self.SetLuaBytecodeGenerator host (SetCompilerToolchain (GCC_COMPILATION_SETTINGS host.os) {})

theorem GenerateNinjaFile_eq :
    self.GenerateNinjaFile host =
      { self.preamble host with buildEdges := self.sourceEdges host ++ [self.linkEdge host] } := by
  have empty : (self.preamble host).buildEdges = [] := rfl
  rw [GenerateNinjaFile, ← preamble, ProcessLuaSources, ProcessNativeSources]
  simp only [foldl_addSource, ProcessStaticLibraries, NinjaFile.AddBuildEdge, empty]
  simp [sourceEdges, overrides, linkEdge, linked, objects]

end BuildTarget

/-! ## Valid targets -/

/-- What the target names can be written into the file, no two build edges give the same, and the
executable is not linked into itself. -/
structure BuildTarget.Valid (target : BuildTarget) (host : Surroundings) : Prop where
  buildDirectory : IsWord target.BUILD_DIR
  executable : IsWord target.OUTPUT_FILE_NAME
  sources : ∀ source ∈ target.cppSources ++ target.cSources ++ target.luaSources, IsWord source
  staticLibraries : ∀ library ∈ target.staticLibraries, IsWord library
  includeDirectories : ∀ directory ∈ target.allIncludeDirectories host, OneLine directory
  sharedLibraries : ∀ library ∈ target.allSharedLibraries host, IsValue library
  version : OneLine target.GIT_VERSION_TAG
  tags : ∀ submodule, OneLine (host.tag submodule)
  nativeSources : (target.cppSources ++ target.cSources).Nodup
  luaSources : target.luaSources.Nodup
  newExecutable : target.libraryPath target.OUTPUT_FILE_NAME ∉ target.linked host

namespace BuildTarget

open C_BuildTools

variable {target : BuildTarget} {host : Surroundings}

theorem oneLine_define (name : LuaString) {version : LuaString} (cleanName : OneLine name)
    (clean : OneLine version) : OneLine (define name version) := by
  have option : OneLine (ascii "-D") := by decide
  have opening : OneLine (ascii "=\\\"") := by decide
  have closing : OneLine (ascii "\\\"") := by decide
  simp [define, option, opening, closing, cleanName, clean]

theorem oneLine_versionString {tag : LuaString} (clean : OneLine tag) :
    OneLine (versionString tag) := by
  cases found : firstMatch versionPattern tag with
  | none =>
    rw [versionString, found]
    decide
  | some version =>
    rw [versionString, found]
    have part : version <:+: tag := firstMatch_infix found
    exact List.all_eq_true.mpr fun c inside => List.all_eq_true.mp clean c (part.subset inside)

theorem define_complete (name version : LuaString) :
    (define name version).getLast? ≠ some dollar := by
  rw [define, List.getLast?_append_of_ne_nil _ (by decide)]
  decide

theorem GetDefines_isValue (valid : target.Valid host) : IsValue (target.GetDefines host) where
  oneLine := by
    have gap : OneLine (ascii " ") := by decide
    have option : OneLine (ascii " -DUWS_HTTPRESPONSE_NO_WRITEMARK") := by decide
    have evo := oneLine_define (ascii "EVO_VERSION") (by decide) valid.version
    have uws := oneLine_define (ascii "UWS_VERSION") (by decide)
      (oneLine_versionString (valid.tags (ascii "deps/uNetworking/uWebSockets")))
    have wgpu := oneLine_define (ascii "WGPU_VERSION") (by decide)
      (oneLine_versionString (valid.tags (ascii "deps/gfx-rs/wgpu-native")))
    have labsound := oneLine_define (ascii "LABSOUND_VERSION") (by decide)
      (oneLine_versionString (valid.tags (ascii "deps/LabSound/LabSound")))
    have stduuid := oneLine_define (ascii "STDUUID_VERSION") (by decide)
      (oneLine_versionString (valid.tags (ascii "deps/mariusbancila/stduuid")))
    simp only [GetDefines, oneLine_append]
    exact ⟨⟨⟨⟨⟨⟨⟨⟨⟨evo, gap⟩, uws⟩, option⟩, gap⟩, wgpu⟩, gap⟩, labsound⟩, gap⟩, stduuid⟩
  complete := by
    have nonempty (name version : LuaString) : define name version ≠ [] :=
      List.append_ne_nil_of_right_ne_nil _ (by decide)
    rw [GetDefines, List.getLast?_append_of_ne_nil _ (nonempty _ _)]
    exact define_complete _ _

/-- Text that only grows by what can stand at the end of a line. -/
theorem foldl_isValue (xs : List LuaString) {start : LuaString} (add : LuaString → LuaString → LuaString)
    (isValue : IsValue start) (each : ∀ text x, x ∈ xs → IsValue text → IsValue (add text x)) :
    IsValue (xs.foldl add start) := by
  induction xs generalizing start with
  | nil => exact isValue
  | cons x xs ih =>
    exact ih (each start x List.mem_cons_self isValue)
      fun text y member => each text y (List.mem_cons_of_mem x member)

theorem isValue_concat {s t : LuaString} (left : OneLine s) (right : IsValue t) (nonempty : t ≠ []) :
    IsValue (s ++ t) where
  oneLine := by simp [left, right.oneLine]
  complete := by
    rw [List.getLast?_append_of_ne_nil _ nonempty]
    exact right.complete

theorem includes_isValue (valid : target.Valid host) : IsValue (target.includes host) := by
  refine foldl_isValue _ _ (by decide) fun text directory member isValue => ?_
  have option : OneLine (ascii "-I ") := by decide
  refine isValue_concat ?_ (by decide) (by decide)
  simp [isValue.oneLine, option, valid.includeDirectories directory member]

theorem sharedLibraryFlags_isValue (valid : target.Valid host) :
    IsValue (target.sharedLibraryFlags host) := by
  have flags := foldl_isValue (target.allSharedLibraries host)
    (fun flags libraryBaseName =>
      flags ++ ascii " " ++ (if host.os = .OSX ∧ startsWithCapitalLetter libraryBaseName
        then ascii "-framework" else ascii "-l") ++ ascii " " ++ libraryBaseName)
    (by decide : IsValue [])
    (fun text library member isValue => by
      have gap : OneLine (ascii " ") := by decide
      have flag : OneLine (if host.os = .OSX ∧ startsWithCapitalLetter library
          then ascii "-framework" else ascii "-l") := by split <;> decide
      refine isValue_append ?_ ?_ (valid.sharedLibraries library member)
      · simp [isValue.oneLine, gap, flag]
      · rw [List.getLast?_append_of_ne_nil _ (by decide)]
        decide)
  rw [sharedLibraryFlags]
  split
  · have gap : OneLine (ascii " ") := by decide
    refine isValue_concat ?_ (by decide) (by decide)
    exact oneLine_append.mpr ⟨flags.oneLine, gap⟩
  · exact flags

end BuildTarget

/-! ## What Ninja reads from the file -/

theorem Printable.AddBuildEdge {file : NinjaFile} (printable : Printable file) {edges : List BuildEdge}
    (wellFormed : ∀ edge ∈ edges, edge.WellFormed) :
    Printable { file with buildEdges := edges } where
  values := printable.values
  ruleDeclarations := printable.ruleDeclarations
  buildEdges := wellFormed

namespace BuildTarget

open C_BuildTools

variable {target : BuildTarget} {host : Surroundings} {rule extension source : LuaString}
  {fields : List (LuaString × LuaString)}

theorem isWord_libraryPath (valid : target.Valid host) {library : LuaString} (isWord : IsWord library) :
    IsWord (target.libraryPath library) :=
  (valid.buildDirectory.append (by decide)).append isWord

theorem isWord_outputFile (valid : target.Valid host) (isWord : IsWord source)
    (isExtension : IsWord extension) : IsWord (target.outputFile extension source) :=
  ((isWord_libraryPath valid isWord).append (by decide)).append isExtension

theorem isWord_extension (os : OS) : IsWord (OBJECT_FILE_EXTENSION os) := by
  cases os <;> decide

/-- A rule with what it is applied to. -/
theorem words_rule (rule : LuaString) (isRule : IsWord rule) (inputs : LuaString) :
    words (rule ++ ascii " " ++ inputs) = rule :: words inputs := by
  have text : rule ++ ascii " " ++ inputs = rule ++ blank :: inputs := by
    rw [List.append_assoc]
    rfl
  rw [text, words_append, words_word isRule]
  rfl

theorem sourceEdge_wellFormed (valid : target.Valid host) (isRule : IsWord rule)
    (isExtension : IsWord extension) (assignable : Assignable fields) (isWord : IsWord source) :
    (target.sourceEdge rule extension fields source).WellFormed := by
  have inputs : table_concat (target.sourceEdge rule extension fields source).inputs blank =
      rule ++ ascii " " ++ source := by
    simp [sourceEdge, table_concat]
  refine ⟨(isWord_outputFile valid isWord isExtension).isPaths, ?_, ?_, ?_, assignable⟩
  · have gap : IsPaths (ascii " ") := by decide
    rw [inputs, isPaths_append, isPaths_append]
    exact ⟨⟨isRule.isPaths, gap⟩, isWord.isPaths⟩
  · rw [inputs, List.getLast?_append_of_ne_nil _ isWord.nonempty]
    exact isWord.isValue.complete
  · rw [sourceEdge, List.flatMap_singleton, words_rule rule isRule]
    exact List.cons_ne_nil _ _

theorem sourceEdge_declaration (valid : target.Valid host) (isRule : IsWord rule)
    (isExtension : IsWord extension) (isWord : IsWord source) :
    (target.sourceEdge rule extension fields source).declaration.head =
      .build [target.outputFile extension source] rule [source] := by
  simp only [BuildEdge.declaration, sourceEdge, List.flatMap_cons, List.flatMap_nil, List.append_nil,
    words_rule rule isRule, words_word isWord, words_word (isWord_outputFile valid isWord isExtension),
    List.headD_cons, List.tail_cons]

theorem isWord_linked (valid : target.Valid host) : ∀ file ∈ target.linked host, IsWord file := by
  have extension := isWord_extension host.os
  refine List.forall_mem_append.mpr ⟨List.forall_mem_append.mpr ⟨?_, ?_⟩, ?_⟩
  · refine List.forall_mem_map.mpr fun source member => ?_
    exact isWord_outputFile valid (valid.sources source (List.mem_append_left _ member)) extension
  · refine List.forall_mem_map.mpr fun source member => ?_
    exact isWord_outputFile valid (valid.sources source (List.mem_append_right _ member)) (by decide)
  · refine List.forall_mem_map.mpr fun library member => ?_
    exact isWord_libraryPath valid (valid.staticLibraries library member)

theorem isPaths_words {strings : List LuaString} (each : ∀ s ∈ strings, IsWord s) :
    IsPaths (table_concat strings blank) := by
  refine List.all_eq_true.mpr fun c inside => ?_
  rcases mem_join inside with rfl | ⟨s, member, within⟩
  · decide
  · exact List.all_eq_true.mp (each s member).isPaths c within

/-- Words in a line of their own are a value. -/
theorem isValue_words {strings : List LuaString} (each : ∀ s ∈ strings, IsWord s) :
    IsValue (table_concat strings blank) where
  oneLine := (isPaths_words each).oneLine
  complete := by
    intro last
    rcases mem_join (List.mem_of_getLast? last) with same | ⟨s, member, within⟩
    · exact absurd same (by decide)
    · exact (each s member).not_mem (by decide) within

theorem linkEdge_wellFormed (valid : target.Valid host) : (target.linkEdge host).WellFormed := by
  have inputs : table_concat (target.linkEdge host).inputs blank =
      ascii "link " ++ table_concat (target.linked host) blank := by
    simp [linkEdge, table_concat]
  refine ⟨(isWord_libraryPath valid valid.executable).isPaths, ?_, ?_, ?_, ?_⟩
  · rw [inputs, isPaths_append]
    exact ⟨by decide, isPaths_words (isWord_linked valid)⟩
  · rw [inputs]
    exact complete_behind (by decide) (isValue_words (isWord_linked valid))
  · have shape := words_rule (ascii "link") (by decide) (table_concat (target.linked host) blank)
    have first : ascii "link" ++ ascii " " = ascii "link " := by decide
    rw [first] at shape
    simp [linkEdge, shape]
  · have isName : IsName (ascii "libs") := by decide
    exact List.forall_mem_singleton.mpr ⟨isName, sharedLibraryFlags_isValue valid⟩

theorem linkEdge_declaration (valid : target.Valid host) :
    (target.linkEdge host).declaration.head =
      .build [target.libraryPath target.OUTPUT_FILE_NAME] (ascii "link") (target.linked host) := by
  have shape := words_rule (ascii "link") (by decide) (table_concat (target.linked host) blank)
  have first : ascii "link" ++ ascii " " = ascii "link " := by decide
  rw [first, words_words (isWord_linked valid)] at shape
  simp only [BuildEdge.declaration, linkEdge, List.flatMap_cons, List.flatMap_nil, List.append_nil, shape,
    words_word (isWord_libraryPath valid valid.executable), List.headD_cons, List.tail_cons]

theorem overrides_assignable (valid : target.Valid host) : Assignable (target.overrides host) := by
  intro field member
  have includes : IsName (ascii "includes") := by decide
  have defines : IsName (ascii "defines") := by decide
  have inside := (host.pairs_perm _).mem_iff.mp member
  rcases List.mem_cons.mp inside with rfl | other
  · exact ⟨includes, includes_isValue valid⟩
  · obtain rfl := List.mem_singleton.mp other
    exact ⟨defines, GetDefines_isValue valid⟩

/-- The settings, in the order in which they are written. -/
def toolchainSettings (info : Toolchain) : List LuaString :=
  [info.C_COMPILER, info.CPP_COMPILER, info.COMPILER_FLAGS_C, info.COMPILER_FLAGS_CPP, info.CPP_LINKER,
    info.LINKER_FLAGS, info.C_ARCHIVER, info.CPP_ARCHIVER, info.ARCHIVER_FLAGS]

theorem SetCompilerToolchain_printable {info : Toolchain}
    (settings : ∀ value ∈ toolchainSettings info, IsValue value) :
    Printable (SetCompilerToolchain info {}) := by
  obtain ⟨cCompiler, settings⟩ := List.forall_mem_cons.mp settings
  obtain ⟨cppCompiler, settings⟩ := List.forall_mem_cons.mp settings
  obtain ⟨cFlags, settings⟩ := List.forall_mem_cons.mp settings
  obtain ⟨cppFlags, settings⟩ := List.forall_mem_cons.mp settings
  obtain ⟨linker, settings⟩ := List.forall_mem_cons.mp settings
  obtain ⟨linkerFlags, settings⟩ := List.forall_mem_cons.mp settings
  obtain ⟨cArchiver, settings⟩ := List.forall_mem_cons.mp settings
  obtain ⟨cppArchiver, settings⟩ := List.forall_mem_cons.mp settings
  have archiverFlags := List.forall_mem_singleton.mp settings
  exact Printable.new
    |>.AddVariable (by decide) cCompiler
    |>.AddVariable (by decide) cppCompiler
    |>.AddVariable (by decide) cFlags
    |>.AddVariable (by decide) cppFlags
    |>.AddVariable (by decide) linker
    |>.AddVariable (by decide) linker
    |>.AddVariable (by decide) linkerFlags
    |>.AddVariable (by decide) cArchiver
    |>.AddVariable (by decide) cppArchiver
    |>.AddVariable (by decide) archiverFlags
    |>.AddRule ⟨by decide, by decide⟩
    |>.AddRule ⟨by decide, by decide⟩
    |>.AddRule ⟨by decide, by decide⟩
    |>.AddRule ⟨by decide, by decide⟩

theorem settings_isValue (os : OS) :
    ∀ value ∈ toolchainSettings (GCC_COMPILATION_SETTINGS os), IsValue value := by
  cases os <;> decide +kernel

theorem preamble_printable (valid : target.Valid host) : Printable (target.preamble host) := by
  have executable : IsValue (target.BUILD_DIR ++ ascii "/" ++
      GetExecutableName host.os (ascii "luajit")) := by
    refine isValue_concat ?_ ?_ ?_
    · exact oneLine_append.mpr ⟨valid.buildDirectory.isValue.oneLine, by decide⟩
    · cases host.os <;> decide
    · cases host.os <;> decide
  exact ((SetCompilerToolchain_printable (settings_isValue host.os)).AddVariable (by decide) executable).AddRule
    ⟨by decide, by decide⟩

end BuildTarget

/-! ## Running the build edges -/

section Builds

variable (declarations : List Declaration)

/-- The build edges: the rule, and what it needs and gives. -/
def builds : List (LuaString × Job LuaString) :=
  declarations.filterMap fun declaration =>
    match declaration.head with
    | .build outputs rule inputs => some (rule, { needs := inputs, gives := outputs })
    | _ => none

def rules : List LuaString :=
  declarations.filterMap fun declaration =>
    match declaration.head with
    | .rule name => some name
    | _ => none

/-- What Ninja has to do. -/
def jobs : List (Job LuaString) := (builds declarations).map Prod.snd

end Builds

theorem builds_append (xs ys : List Declaration) : builds (xs ++ ys) = builds xs ++ builds ys :=
  List.filterMap_append

theorem builds_eq_nil {xs : List Declaration} (other : ∀ x ∈ xs, ∀ outputs rule inputs,
    x.head ≠ .build outputs rule inputs) : builds xs = [] := by
  refine List.filterMap_eq_nil_iff.mpr fun x member => ?_
  have here := other x member
  cases shape : x.head with
  | build outputs rule inputs => exact absurd shape (here outputs rule inputs)
  | variable_ | rule | subninja => rfl

namespace BuildTarget

open C_BuildTools

section Plan

variable (self : BuildTarget) (host : Surroundings)

/-- Makes an object from a source. -/
def compilation (rule extension source : LuaString) : LuaString × Job LuaString :=
  (rule, { needs := [source], gives := [self.outputFile extension source] })

/-- C++ sources first, then C sources, then Lua sources. -/
def compilations : List (LuaString × Job LuaString) :=
  self.cppSources.map (self.compilation (ascii "compile") (OBJECT_FILE_EXTENSION host.os)) ++
    self.cSources.map (self.compilation (ascii "ccompile") (OBJECT_FILE_EXTENSION host.os)) ++
    self.luaSources.map (self.compilation (ascii "bcsave") (ascii "c"))

/-- Makes the executable from all objects, in the order of the sources, and then the libraries. -/
def linking : LuaString × Job LuaString :=
  (ascii "link",
    { needs := self.linked host, gives := [self.libraryPath self.OUTPUT_FILE_NAME] })

end Plan

variable {target : BuildTarget} {host : Surroundings}

/-- Edges of sources, all with the same rule. -/
theorem builds_sources (valid : target.Valid host) {rule extension : LuaString}
    {fields : List (LuaString × LuaString)} (isRule : IsWord rule) (isExtension : IsWord extension)
    {sources : List LuaString} (each : ∀ source ∈ sources, IsWord source) :
    builds ((sources.map (target.sourceEdge rule extension fields)).map BuildEdge.declaration) =
      sources.map (target.compilation rule extension) := by
  rw [builds, List.map_map, List.filterMap_map, ← List.filterMap_eq_map]
  refine List.filterMap_congr fun source member => ?_
  simp only [Function.comp_apply, sourceEdge_declaration valid isRule isExtension (each source member)]
  rfl

theorem sources_forall (valid : target.Valid host) :
    (∀ source ∈ target.cppSources, IsWord source) ∧ (∀ source ∈ target.cSources, IsWord source) ∧
      ∀ source ∈ target.luaSources, IsWord source := by
  obtain ⟨native, lua⟩ := List.forall_mem_append.mp valid.sources
  obtain ⟨cpp, c⟩ := List.forall_mem_append.mp native
  exact ⟨cpp, c, lua⟩

theorem builds_edges (valid : target.Valid host) :
    builds ((target.sourceEdges host ++ [target.linkEdge host]).map BuildEdge.declaration) =
      target.compilations host ++ [target.linking host] := by
  obtain ⟨cpp, c, lua⟩ := sources_forall valid
  have extension := isWord_extension host.os
  have link : builds [(target.linkEdge host).declaration] = [target.linking host] := by
    simp only [builds, List.filterMap_cons, linkEdge_declaration valid, List.filterMap_nil]
    rfl
  rw [sourceEdges, List.map_append, List.map_append, List.map_append, builds_append, builds_append,
    builds_append, builds_sources valid (by decide) extension cpp,
    builds_sources valid (by decide) extension c, builds_sources valid (by decide) (by decide) lua,
    List.map_singleton, link, compilations]

end BuildTarget

theorem builds_declarations (file : NinjaFile) :
    builds (file.declarations []) = builds (file.buildEdges.map BuildEdge.declaration) := by
  have variables_ : builds (file.variables_.assigned.map variableDeclaration) = [] :=
    builds_eq_nil <| List.forall_mem_map.mpr fun _ _ _ _ _ => Head.noConfusion
  have ruleDeclarations : builds (file.ruleDeclarations.map BuildRule.declaration) = [] :=
    builds_eq_nil <| List.forall_mem_map.mpr fun _ _ _ _ _ => Head.noConfusion
  have version (rest : List Declaration) :
      builds (variableDeclaration (ascii "ninja_required_version", DEFAULT_REQUIRED_VERSION) :: rest) =
        builds rest := rfl
  rw [NinjaFile.declarations, version, builds_append, builds_append, variables_, ruleDeclarations,
    List.map_nil, List.append_nil, List.nil_append, List.nil_append]

theorem mem_rules {file : NinjaFile} {rule : BuildRule} (member : rule ∈ file.ruleDeclarations) :
    rule.name ∈ rules (file.declarations []) := by
  have declared : rule.declaration ∈ file.declarations [] := by
    simp only [NinjaFile.declarations, List.mem_cons, List.mem_append]
    exact .inr (.inr (.inl (List.mem_map_of_mem member)))
  exact List.mem_filterMap.mpr ⟨_, declared, rfl⟩

namespace BuildTarget

/-- Each build edge has a rule of the file. -/
theorem rules_declared (target : BuildTarget) (host : Surroundings) :
    ∀ build ∈ target.compilations host ++ [target.linking host],
      build.1 ∈ rules ((target.GenerateNinjaFile host).declarations []) := by
  have named : ∀ name ∈ [ascii "compile", ascii "ccompile", ascii "link", ascii "bcsave"],
      name ∈ rules ((target.GenerateNinjaFile host).declarations []) := by
    intro name member
    have listed : name ∈ (target.GenerateNinjaFile host).ruleDeclarations.map BuildRule.name := by
      rw [GenerateNinjaFile_eq]
      revert name
      exact (by decide : ∀ name ∈ [ascii "compile", ascii "ccompile", ascii "link", ascii "bcsave"],
        name ∈ [ascii "compile", ascii "ccompile", ascii "link", ascii "clink", ascii "bcsave"])
    obtain ⟨rule, inside, rfl⟩ := List.mem_map.mp listed
    exact mem_rules inside
  refine List.forall_mem_append.mpr ⟨List.forall_mem_append.mpr
    ⟨List.forall_mem_append.mpr ⟨?_, ?_⟩, ?_⟩, List.forall_mem_singleton.mpr ?_⟩
  · exact List.forall_mem_map.mpr fun _ _ => named (ascii "compile") (by decide)
  · exact List.forall_mem_map.mpr fun _ _ => named (ascii "ccompile") (by decide)
  · exact List.forall_mem_map.mpr fun _ _ => named (ascii "bcsave") (by decide)
  · exact named (ascii "link") (by decide)

theorem GenerateNinjaFile_wellFormed {target : BuildTarget} {host : Surroundings}
    (valid : target.Valid host) : (target.GenerateNinjaFile host).WellFormed := by
  obtain ⟨cpp, c, lua⟩ := sources_forall valid
  have extension := isWord_extension host.os
  have native := overrides_assignable valid
  rw [GenerateNinjaFile_eq]
  refine ((preamble_printable valid).AddBuildEdge ?_).wellFormed
  refine List.forall_mem_append.mpr ⟨List.forall_mem_append.mpr
    ⟨List.forall_mem_append.mpr ⟨?_, ?_⟩, ?_⟩, List.forall_mem_singleton.mpr (linkEdge_wellFormed valid)⟩
  · exact List.forall_mem_map.mpr fun source member =>
      sourceEdge_wellFormed valid (by decide) extension native (cpp source member)
  · exact List.forall_mem_map.mpr fun source member =>
      sourceEdge_wellFormed valid (by decide) extension native (c source member)
  · exact List.forall_mem_map.mpr fun source member =>
      sourceEdge_wellFormed valid (by decide) (by decide) (List.forall_mem_nil _) (lua source member)

/-! ### In any order -/

variable {target : BuildTarget} {host : Surroundings}

theorem outputFile_injective (target : BuildTarget) (extension : LuaString) :
    (target.outputFile extension).Injective := by
  intro first second same
  exact List.append_cancel_left (List.append_cancel_right (List.append_cancel_right same))

/-- Sources of different kinds have different objects. -/
theorem outputFile_ne (target : BuildTarget) (os : OS) (native lua : LuaString) :
    target.outputFile (C_BuildTools.OBJECT_FILE_EXTENSION os) native ≠
      target.outputFile (ascii "c") lua := by
  intro same
  have ends := congrArg List.getLast? same
  rw [outputFile, outputFile, List.getLast?_append_of_ne_nil _ (isWord_extension os).nonempty,
    List.getLast?_append_of_ne_nil _ (by decide)] at ends
  cases os <;> exact absurd ends (by decide)

theorem objects_nodup (valid : target.Valid host) : (target.objects host).Nodup := by
  refine List.nodup_append.mpr ⟨valid.nativeSources.map (outputFile_injective target _),
    valid.luaSources.map (outputFile_injective target _), ?_⟩
  intro native fromNative lua fromLua
  obtain ⟨source, -, rfl⟩ := List.mem_map.mp fromNative
  obtain ⟨source', -, rfl⟩ := List.mem_map.mp fromLua
  exact outputFile_ne target host.os source source'

/-- Each compilation gives one object. -/
theorem compilations_gives (target : BuildTarget) (host : Surroundings) :
    (target.compilations host).map (fun build => build.2.gives) =
      (target.objects host).map ([·]) := by
  simp [compilations, objects, compilation, Function.comp_def]

end BuildTarget

namespace BuildTarget

variable {target : BuildTarget} {host : Surroundings} {there : LuaString → Prop}

/-- What is there before anything has been built. -/
structure Prepared (target : BuildTarget) (host : Surroundings) (there : LuaString → Prop) : Prop where
  sources : ∀ source ∈ target.cppSources ++ target.cSources ++ target.luaSources, there source
  staticLibraries : ∀ library ∈ target.staticLibraries, there (target.libraryPath library)
  objects : ∀ object ∈ target.objects host, ¬there object

/-- All that has to be done. -/
def plan (target : BuildTarget) (host : Surroundings) : List (Job LuaString) :=
  (target.compilations host ++ [target.linking host]).map Prod.snd

theorem plan_eq (target : BuildTarget) (host : Surroundings) :
    target.plan host = (target.compilations host).map Prod.snd ++ [(target.linking host).2] := by
  rw [plan, List.map_append, List.map_singleton]

theorem plan_gives (target : BuildTarget) (host : Surroundings) :
    (target.plan host).map Job.gives =
      (target.objects host ++ [target.libraryPath target.OUTPUT_FILE_NAME]).map ([·]) := by
  rw [plan_eq, List.map_append, List.map_map, List.map_append, ← compilations_gives]
  rfl

/-- No two jobs give the same. -/
theorem gives_nodup (valid : target.Valid host) : ((target.plan host).map Job.gives).Nodup := by
  rw [plan_gives]
  refine List.Nodup.map List.singleton_injective ?_
  refine List.nodup_append.mpr ⟨objects_nodup valid, List.nodup_singleton _, ?_⟩
  rintro object inside _ last rfl
  exact valid.newExecutable (List.mem_append_left _ (List.mem_singleton.mp last ▸ inside))

/-- A compilation needs a source only. -/
theorem compilations_needs {job : Job LuaString}
    (member : job ∈ (target.compilations host).map Prod.snd) :
    ∃ source ∈ target.cppSources ++ target.cSources ++ target.luaSources, job.needs = [source] := by
  obtain ⟨build, inside, rfl⟩ := List.mem_map.mp member
  rcases List.mem_append.mp inside with native | lua
  · rcases List.mem_append.mp native with cpp | c
    · obtain ⟨source, listed, rfl⟩ := List.mem_map.mp cpp
      exact ⟨source, List.mem_append_left _ (List.mem_append_left _ listed), rfl⟩
    · obtain ⟨source, listed, rfl⟩ := List.mem_map.mp c
      exact ⟨source, List.mem_append_left _ (List.mem_append_right _ listed), rfl⟩
  · obtain ⟨source, listed, rfl⟩ := List.mem_map.mp lua
    exact ⟨source, List.mem_append_right _ listed, rfl⟩

/-- Each object is given by a compilation. -/
theorem exists_compilation {object : LuaString} (member : object ∈ target.objects host) :
    ∃ job ∈ (target.compilations host).map Prod.snd, job.gives = [object] := by
  have listed : [object] ∈ (target.compilations host).map fun build => build.2.gives := by
    rw [compilations_gives]
    exact List.mem_map_of_mem member
  obtain ⟨build, inside, gives⟩ := List.mem_map.mp listed
  exact ⟨build.2, List.mem_map_of_mem inside, gives⟩

theorem plan_ordered (prepared : target.Prepared host there) : Ordered (target.plan host) there := by
  rw [plan_eq]
  refine ordered_concat (fun job member => ?_) fun thing needed => ?_
  · obtain ⟨source, listed, needs⟩ := compilations_needs member
    rw [Job.Ready, needs]
    exact List.forall_mem_singleton.mpr (.inl (prepared.sources source listed))
  · rcases List.mem_append.mp needed with object | library
    · obtain ⟨job, member, gives⟩ := exists_compilation object
      exact .inr ⟨job, member, gives ▸ List.mem_singleton_self thing⟩
    · obtain ⟨name, listed, rfl⟩ := List.mem_map.mp library
      exact .inl (prepared.staticLibraries name listed)

/-- Each other job gives an object that is needed for linking, and no other job gives it. -/
theorem linking_needs (valid : target.Valid host) (prepared : target.Prepared host there)
    {job : Job LuaString} (member : job ∈ target.plan host) (other : job ≠ (target.linking host).2) :
    ∃ thing ∈ (target.linking host).2.needs, ¬there thing ∧
      ∀ same ∈ target.plan host, thing ∈ same.gives → same = job := by
  have compiled : job ∈ (target.compilations host).map Prod.snd := by
    rw [plan_eq] at member
    exact (List.mem_append.mp member).resolve_right fun last => other (List.mem_singleton.mp last)
  obtain ⟨object, inside, gives⟩ : ∃ object ∈ target.objects host, [object] = job.gives := by
    have listed := List.mem_map_of_mem (f := Job.gives) compiled
    rw [List.map_map, show Job.gives ∘ Prod.snd = fun build : LuaString × Job LuaString =>
      build.2.gives from rfl, compilations_gives] at listed
    exact List.mem_map.mp listed
  refine ⟨object, List.mem_append_left _ inside, prepared.objects object inside, ?_⟩
  intro same planned given
  have single : same.gives = job.gives := by
    have listed := List.mem_map_of_mem (f := Job.gives) planned
    rw [plan_gives] at listed
    obtain ⟨thing, -, alone⟩ := List.mem_map.mp listed
    rw [← alone] at given ⊢
    rw [← gives, List.mem_singleton.mp given]
  exact List.inj_on_of_nodup_map (gives_nodup valid) planned member single

/-- Every source has been compiled, and after that everything has been linked. -/
def Built (target : BuildTarget) (host : Surroundings) (done : List (Job LuaString)) : Prop :=
  ∃ compiled, done = compiled ++ [(target.linking host).2] ∧
    compiled.Perm ((target.compilations host).map Prod.snd)

/-- A schedule that cannot go on has compiled every source, and then linked the objects. -/
theorem scheduled (valid : target.Valid host) (prepared : target.Prepared host there)
    {done : List (Job LuaString)} (schedule : Schedule (target.plan host) there done)
    (stuck : Stuck (target.plan host) there done) : target.Built host done := by
  have distinct : (target.plan host).Nodup := List.Nodup.of_map _ (gives_nodup valid)
  have all := schedule.perm_of_stuck distinct (plan_ordered prepared) stuck
  have last : (target.linking host).2 ∈ done := by
    rw [all.mem_iff, plan_eq]
    exact List.mem_append_right _ (List.mem_singleton_self _)
  obtain ⟨compiled, rfl⟩ := schedule.eq_concat_of_last last
    fun job member other => linking_needs valid prepared member other
  rw [plan_eq] at all
  exact ⟨compiled, rfl, (List.perm_append_right_iff _).mp all⟩

end BuildTarget

/-- The main result: Ninja reads the build edges of the target from the generated file, each with
a rule of the file. In whatever order it runs them, it can go on until every source has been
compiled once and then the objects have been linked with the libraries, and it is only then that
none is left that could be run. -/
theorem generated_builds {target : BuildTarget} {host : Surroundings} (valid : target.Valid host) :
    ∃ declarations, read ((target.GenerateNinjaFile host).ToString []) = some declarations ∧
      builds declarations = target.compilations host ++ [target.linking host] ∧
      (∀ build ∈ builds declarations, build.1 ∈ rules declarations) ∧
      ∀ there done, target.Prepared host there → Schedule (jobs declarations) there done →
        (Stuck (jobs declarations) there done → target.Built host done) ∧
        ∃ more, Schedule (jobs declarations) there (done ++ more) ∧ target.Built host (done ++ more) := by
  have edges : builds ((target.GenerateNinjaFile host).declarations []) =
      target.compilations host ++ [target.linking host] := by
    rw [builds_declarations, BuildTarget.GenerateNinjaFile_eq, BuildTarget.builds_edges valid]
  refine ⟨_, read_file (BuildTarget.GenerateNinjaFile_wellFormed valid) (List.forall_mem_nil _), edges,
    ?_, fun there done prepared schedule => ?_⟩
  · rw [edges]
    exact target.rules_declared host
  · rw [jobs, edges] at schedule ⊢
    refine ⟨BuildTarget.scheduled valid prepared schedule, ?_⟩
    obtain ⟨more, longer, stuck⟩ := schedule.exists_stuck
    exact ⟨more, longer, BuildTarget.scheduled valid prepared longer stuck⟩

def sampleTarget : BuildTarget where
  OUTPUT_FILE_NAME := ascii "evo"
  BUILD_DIR := ascii "ninjabuild-unix"
  GIT_VERSION_TAG := ascii "v0.0.20"
  luaSources := [ascii "deps/versions.lua", ascii "Runtime/evo.lua"]
  cSources := [ascii "Runtime/luajit_repl.c"]
  cppSources := [ascii "Runtime/main.cpp", ascii "Runtime/LuaVirtualMachine.cpp"]
  includeDirectories := [ascii "Runtime", ascii "deps"]
  staticLibraries := [ascii "libluajit.a", ascii "libluv.a"]
  sharedLibraries := fun _ => [ascii "m", ascii "dl"]
  staticallyLinkStandardLibraries := true

/-- On Linux, with the flags that `pkg-config` may print. -/
def sampleHost : Surroundings where
  os := .Linux
  webviewIncludeFlags := [ascii "/usr/include/gtk-3.0 "]
  webviewLibFlags := ascii "-lwebkit2gtk-4.1 -lgtk-3 "
  tag := fun _ => ascii "v20.48.0-1-g5c9e"
  pairs := id
  pairs_perm := List.Perm.refl

theorem sampleTarget_valid : sampleTarget.Valid sampleHost where
  buildDirectory := by decide
  executable := by decide
  sources := by decide
  staticLibraries := by decide
  includeDirectories := by decide
  sharedLibraries := by decide
  version := by decide
  tags := fun _ => (by decide : OneLine (ascii "v20.48.0-1-g5c9e"))
  nativeSources := by decide
  luaSources := by decide
  newExecutable := by decide

/-- The sources and the static libraries. -/
def sampleFiles : List LuaString :=
  sampleTarget.cppSources ++ sampleTarget.cSources ++ sampleTarget.luaSources ++
    sampleTarget.staticLibraries.map sampleTarget.libraryPath

theorem sampleFiles_prepared : sampleTarget.Prepared sampleHost (· ∈ sampleFiles) where
  sources _ listed := List.mem_append_left _ listed
  staticLibraries _ listed := List.mem_append_right _ (List.mem_map_of_mem listed)
  objects := by decide

/-- The last Lua source. -/
def sampleJob : Job LuaString :=
  (sampleTarget.compilation (ascii "bcsave") (ascii "c") (ascii "Runtime/evo.lua")).2

/-- When the last source has been compiled first, the build still goes on until all others have
been compiled and the executable has been linked. -/
theorem generated_builds_sample :
    ∃ declarations more,
      read ((sampleTarget.GenerateNinjaFile sampleHost).ToString []) = some declarations ∧
      Schedule (jobs declarations) (· ∈ sampleFiles) (sampleJob :: more) ∧
      sampleTarget.Built sampleHost (sampleJob :: more) := by
  obtain ⟨declarations, read, edges, -, schedules⟩ := generated_builds sampleTarget_valid
  have planned : sampleJob ∈ jobs declarations := by
    rw [jobs, edges, BuildTarget.compilations]
    exact List.mem_map_of_mem (List.mem_append_left _ (List.mem_append_right _
      (List.mem_map_of_mem (by decide))))
  have ready : sampleJob.Ready (· ∈ sampleFiles) [] :=
    List.forall_mem_singleton.mpr (.inl (by decide))
  have begun : Schedule (jobs declarations) (· ∈ sampleFiles) [sampleJob] :=
    Schedule.start.next planned List.not_mem_nil ready
  obtain ⟨-, more, schedule, built⟩ := schedules _ [sampleJob] sampleFiles_prepared begun
  exact ⟨declarations, more, read, schedule, built⟩

end EvoRuntime.BuildTools
