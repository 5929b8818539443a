import EvoRuntime.BuildTools.NinjaFile
import EvoRuntime.Lua.Patterns

/-!
# Build targets

`BuildTarget` describes an executable by its sources and libraries, and generates the Ninja file
for it.
-/
namespace EvoRuntime.BuildTools

open Lua Library

/-! ## Toolchains -/

/-- `ffi.os`. Other systems have no list of shared libraries, which is an error. -/
inductive OS
  | Windows
  | OSX
  | Linux
  deriving DecidableEq

namespace C_BuildTools

variable (os : OS)

def GCC_RELEASE_FLAGS : LuaString := ascii "-O3 -DNDEBUG"

def GCC_DEBUG_FLAGS : LuaString := ascii ""

def GCC_DIAGNOSTICS_FLAGS : LuaString :=
  ascii "-Wall -Wextra -Wno-missing-field-initializers -Wno-unused-parameter " ++
    ascii "-fvisibility=hidden -fno-strict-aliasing -fdiagnostics-color -Wfatal-errors"

def DEFAULT_COMPILER_FLAGS : LuaString :=
  GCC_RELEASE_FLAGS ++ ascii " " ++ GCC_DEBUG_FLAGS ++ ascii " " ++ GCC_DIAGNOSTICS_FLAGS

def OBJECT_FILE_EXTENSION : LuaString := if os = .Windows then ascii "obj" else ascii "o"

def EXECUTABLE_FILE_EXTENSION : LuaString := if os = .Windows then ascii ".exe" else ascii ""

def GetExecutableName (libraryBaseName : LuaString) : LuaString :=
  libraryBaseName ++ EXECUTABLE_FILE_EXTENSION os

structure Toolchain where
  C_COMPILER : LuaString
  CPP_COMPILER : LuaString
  COMPILER_FLAGS_CPP : LuaString
  COMPILER_FLAGS_C : LuaString
  CPP_LINKER : LuaString
  LINKER_FLAGS : LuaString
  C_ARCHIVER : LuaString
  CPP_ARCHIVER : LuaString
  ARCHIVER_FLAGS : LuaString

def GCC_COMPILATION_SETTINGS : Toolchain where
  C_COMPILER := ascii "gcc"
  CPP_COMPILER := ascii "g++"
  COMPILER_FLAGS_CPP := DEFAULT_COMPILER_FLAGS ++ ascii " -std=c++20"
  COMPILER_FLAGS_C := DEFAULT_COMPILER_FLAGS ++ ascii " -std=c11" ++
    if os = .OSX then ascii " -ObjC" else ascii ""
  CPP_LINKER := ascii "g++"
  LINKER_FLAGS := if os = .Windows then ascii "-Wl,--export-all-symbols" else ascii "-rdynamic"
  C_ARCHIVER := ascii "ar"
  CPP_ARCHIVER := ascii "ar"
  ARCHIVER_FLAGS := ascii "-rcs"

end C_BuildTools

/-! ## Targets -/

structure BuildTarget where
  OUTPUT_FILE_NAME : LuaString
  BUILD_DIR : LuaString
  GIT_VERSION_TAG : LuaString
  luaSources : List LuaString
  cSources : List LuaString
  cppSources : List LuaString
  includeDirectories : List LuaString
  staticLibraries : List LuaString
  sharedLibraries : OS → List LuaString
  /-- `staticallyLinkStandardLibraries.Windows` -/
  staticallyLinkStandardLibraries : Bool

/-- What is discovered outside of the repository. -/
structure Surroundings where
  os : OS
  /-- `NinjaBuildTools.DiscoverIncludeDirectories(packageNames)` -/
  webviewIncludeFlags : List LuaString
  /-- `NinjaBuildTools.DiscoverSharedLibraries(packageNames)` -/
  webviewLibFlags : LuaString
  /-- The tag of a submodule in `deps.versions`. -/
  tag : LuaString → LuaString
  /-- The order in which `pairs` takes the fields of a table. -/
  pairs : List (LuaString × LuaString) → List (LuaString × LuaString)
  pairs_perm : ∀ fields, (pairs fields).Perm fields

/-- `%-l([^%s]+)%s?` -/
def libraryPattern : Pattern UInt8 :=
  Pattern.literal (ascii "-l") ++
    [{ accepts := fun c => !isSpace c, repetition := .more, captured := true }, optionalSpace]

/-- What `string.gmatch` finds in the flags. -/
def librariesIn (flags : LuaString) : List LuaString :=
  (Pattern.allMatches libraryPattern flags).map fun found => found.captures.headD found.text

/-- `(%d+.%d+.%d+)` -/
def versionPattern : Pattern UInt8 :=
  let digits : PatternItem UInt8 := { accepts := isDigit, repetition := .more, captured := false }
  let any : PatternItem UInt8 := { accepts := isAny, repetition := .one, captured := false }
  [digits, any, digits, any, digits]

/-- Without a version in the tag, it is `nil` that is formatted. -/
def versionString (tag : LuaString) : LuaString := (firstMatch versionPattern tag).getD (ascii "nil")

def define (name version : LuaString) : LuaString :=
  ascii "-D" ++ name ++ ascii "=\\\"" ++ version ++ ascii "\\\""

/-- The file, and the objects to be linked. -/
structure Generation where
  ninjaFile : NinjaFile := {}
  objectFiles : List LuaString := []

namespace BuildTarget

open C_BuildTools

variable (self : BuildTarget) (host : Surroundings)

def SetCompilerToolchain (toolchainInfo : Toolchain) (ninjaFile : NinjaFile) : NinjaFile :=
  ninjaFile
    |>.AddVariable (ascii "C_COMPILER") toolchainInfo.C_COMPILER
    |>.AddVariable (ascii "CPP_COMPILER") toolchainInfo.CPP_COMPILER
    |>.AddVariable (ascii "COMPILER_FLAGS_C") toolchainInfo.COMPILER_FLAGS_C
    |>.AddVariable (ascii "COMPILER_FLAGS_CPP") toolchainInfo.COMPILER_FLAGS_CPP
    |>.AddVariable (ascii "C_LINKER") toolchainInfo.CPP_LINKER
    |>.AddVariable (ascii "CPP_LINKER") toolchainInfo.CPP_LINKER
    |>.AddVariable (ascii "LINKER_FLAGS") toolchainInfo.LINKER_FLAGS
    |>.AddVariable (ascii "C_ARCHIVER") toolchainInfo.C_ARCHIVER
    |>.AddVariable (ascii "CPP_ARCHIVER") toolchainInfo.CPP_ARCHIVER
    |>.AddVariable (ascii "ARCHIVER_FLAGS") toolchainInfo.ARCHIVER_FLAGS
    |>.AddRule
      { name := ascii "compile"
        command := ascii "$CPP_COMPILER -c $in -o $out -MT $out -MMD -MF $out.d " ++
          ascii "$COMPILER_FLAGS_CPP $includes $defines"
        description := ascii "Compiling $in ..."
        deps := ascii "$C_COMPILER"
        depfile := ascii "$out.d" }
    |>.AddRule
      { name := ascii "ccompile"
        command := ascii "$C_COMPILER -c $in -o $out -MT $out -MMD -MF $out.d " ++
          ascii "$COMPILER_FLAGS_C $includes $defines"
        description := ascii "Compiling $in ..."
        deps := ascii "$C_COMPILER"
        depfile := ascii "$out.d" }
    |>.AddRule
      { name := ascii "link"
        command := ascii "$CPP_LINKER $in -o $out $libs $LINKER_FLAGS"
        description := ascii "Linking target $out ..." }
    |>.AddRule
      { name := ascii "clink"
        command := ascii "$C_LINKER $in -o $out $libs $LINKER_FLAGS"
        description := ascii "Linking target $out ..." }

def SetLuaBytecodeGenerator (ninjaFile : NinjaFile) : NinjaFile :=
  let LUAJIT_EXECUTABLE_PATH :=
    self.BUILD_DIR ++ ascii "/" ++ GetExecutableName host.os (ascii "luajit")
  ninjaFile
    |>.AddVariable (ascii "LUAJIT_EXECUTABLE") LUAJIT_EXECUTABLE_PATH
    |>.AddRule
      { name := ascii "bcsave"
        command := ascii "$LUAJIT_EXECUTABLE -bg $in $out"
        description := ascii "Saving LuaJIT bytecode for $in ..." }

def GetDefines : LuaString :=
  define (ascii "EVO_VERSION") self.GIT_VERSION_TAG ++ ascii " " ++
    define (ascii "UWS_VERSION") (versionString (host.tag (ascii "deps/uNetworking/uWebSockets"))) ++
    ascii " -DUWS_HTTPRESPONSE_NO_WRITEMARK" ++ ascii " " ++
    define (ascii "WGPU_VERSION") (versionString (host.tag (ascii "deps/gfx-rs/wgpu-native"))) ++
    ascii " " ++
    define (ascii "LABSOUND_VERSION") (versionString (host.tag (ascii "deps/LabSound/LabSound"))) ++
    ascii " " ++
    define (ascii "STDUUID_VERSION") (versionString (host.tag (ascii "deps/mariusbancila/stduuid")))

/-- The field is extended on Linux. -/
def allIncludeDirectories : List LuaString :=
  self.includeDirectories ++ if host.os = .Linux then host.webviewIncludeFlags else []

def allSharedLibraries : List LuaString :=
  self.sharedLibraries host.os ++ if host.os = .Linux then librariesIn host.webviewLibFlags else []

def outputFile (extension sourceFilePath : LuaString) : LuaString :=
  self.BUILD_DIR ++ ascii "/" ++ sourceFilePath ++ ascii "." ++ extension

/-- A build edge for a source, of which an object is made. -/
def addSource (rule extension : LuaString) (variableOverrides : List (LuaString × LuaString))
    (generation : Generation) (sourceFilePath : LuaString) : Generation where
  ninjaFile := generation.ninjaFile.AddBuildEdge
    { outputs := self.outputFile extension sourceFilePath
      inputs := [rule ++ ascii " " ++ sourceFilePath]
      variableOverrides := variableOverrides }
  objectFiles := generation.objectFiles ++ [self.outputFile extension sourceFilePath]

def includes : LuaString :=
  (self.allIncludeDirectories host).foldl
    (fun includes includeDir => includes ++ ascii "-I " ++ includeDir ++ ascii " ") []

def ProcessNativeSources (generation : Generation) : Generation :=
  let variableOverrides := host.pairs
    [(ascii "includes", self.includes host), (ascii "defines", self.GetDefines host)]
  let generation := self.cppSources.foldl
    (self.addSource (ascii "compile") (OBJECT_FILE_EXTENSION host.os) variableOverrides) generation
  self.cSources.foldl
    (self.addSource (ascii "ccompile") (OBJECT_FILE_EXTENSION host.os) variableOverrides) generation

def ProcessLuaSources (generation : Generation) : Generation :=
  self.luaSources.foldl (self.addSource (ascii "bcsave") (ascii "c") []) generation

def startsWithCapitalLetter (libraryBaseName : LuaString) : Bool :=
  match libraryBaseName with
  | [] => false
  | c :: _ => 0x41 ≤ c && c ≤ 0x5A

def sharedLibraryFlags : LuaString :=
  let flags := (self.allSharedLibraries host).foldl
    (fun flags libraryBaseName =>
      let isAppleFramework := host.os = .OSX ∧ startsWithCapitalLetter libraryBaseName
      let flag := if isAppleFramework then ascii "-framework" else ascii "-l"
      flags ++ ascii " " ++ flag ++ ascii " " ++ libraryBaseName) []
  if host.os = .Windows ∧ self.staticallyLinkStandardLibraries then
    flags ++ ascii " " ++ ascii "-static-libgcc -static-libstdc++ -static -lpthread"
  else flags

def libraryPath (libraryBaseName : LuaString) : LuaString :=
  self.BUILD_DIR ++ ascii "/" ++ libraryBaseName

def ProcessStaticLibraries (generation : Generation) : NinjaFile :=
  let objectFiles := generation.objectFiles ++ self.staticLibraries.map self.libraryPath
  generation.ninjaFile.AddBuildEdge
    { outputs := self.libraryPath self.OUTPUT_FILE_NAME
      inputs := [ascii "link " ++ table_concat objectFiles blank]
      variableOverrides := [(ascii "libs", self.sharedLibraryFlags host)] }

def GenerateNinjaFile : NinjaFile :=
  let ninjaFile := SetCompilerToolchain (GCC_COMPILATION_SETTINGS host.os) {}
  let ninjaFile := self.SetLuaBytecodeGenerator host ninjaFile
  let generation := self.ProcessNativeSources host { ninjaFile := ninjaFile }
  let generation := self.ProcessLuaSources generation
  self.ProcessStaticLibraries host generation

end BuildTarget

end EvoRuntime.BuildTools
