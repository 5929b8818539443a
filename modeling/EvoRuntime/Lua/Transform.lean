import EvoRuntime.Lua.Strings

/-!
# Colours

The functions of `transform` put a text between escape sequences of the terminal, or leave
it as it is when transformations are not enabled.
-/
namespace EvoRuntime.Lua

def START_SEQUENCE : LuaString := 27 :: ascii "["

def RESET_SEQUENCE : LuaString := 27 :: ascii "[0;0m"

/-- The keys of `transform.colorCodes`. -/
inductive Color
  | bold
  | underline
  | blink
  | reverse
  | black
  | red
  | green
  | yellow
  | blue
  | magenta
  | cyan
  | white
  | gray
  | brightRed
  | brightGreen
  | brightYellow
  | brightBlue
  | brightMagenta
  | brightCyan
  | brightWhite
  | blackBackground
  | redBackground
  | greenBackground
  | yellowBackground
  | blueBackground
  | magentaBackground
  | cyanBackground
  | whiteBackground
  | brightRedBackground
  | brightGreenBackground
  | brightYellowBackground
  | brightBlueBackground
  | brightMagentaBackground
  | brightCyanBackground
  | brightWhiteBackground
  deriving DecidableEq

/-- `transform.colorCodes`. -/
def Color.code : Color → LuaString
  | .bold => ascii "1m"
  | .underline => ascii "4m"
  | .blink => ascii "5m"
  | .reverse => ascii "7m"
  | .black => ascii "0;30m"
  | .red => ascii "0;31m"
  | .green => ascii "0;32m"
  | .yellow => ascii "0;33m"
  | .blue => ascii "0;34m"
  | .magenta => ascii "0;35m"
  | .cyan => ascii "0;36m"
  | .white => ascii "0;37m"
  | .gray => ascii "1;30m"
  | .brightRed => ascii "1;31m"
  | .brightGreen => ascii "1;32m"
  | .brightYellow => ascii "1;33m"
  | .brightBlue => ascii "1;34m"
  | .brightMagenta => ascii "1;35m"
  | .brightCyan => ascii "1;36m"
  | .brightWhite => ascii "1;37m"
  | .blackBackground => ascii "40m"
  | .redBackground => ascii "41m"
  | .greenBackground => ascii "42m"
  | .yellowBackground => ascii "43m"
  | .blueBackground => ascii "44m"
  | .magentaBackground => ascii "45m"
  | .cyanBackground => ascii "46m"
  | .whiteBackground => ascii "47m"
  | .brightRedBackground => ascii "101m"
  | .brightGreenBackground => ascii "102m"
  | .brightYellowBackground => ascii "103m"
  | .brightBlueBackground => ascii "104m"
  | .brightMagentaBackground => ascii "105m"
  | .brightCyanBackground => ascii "106m"
  | .brightWhiteBackground => ascii "107m"

/-- `enabled` is `transform.ENABLE_TEXT_TRANSFORMATIONS`. -/
def transformText (enabled : Bool) (text : LuaString) (color : Color) : LuaString :=
  if enabled then START_SEQUENCE ++ color.code ++ text ++ RESET_SEQUENCE else text

end EvoRuntime.Lua
