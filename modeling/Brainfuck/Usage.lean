/-
The text that `--help` shows.
-/

namespace Brainfuck

/-- the lines of the usage text for a program of this name -/
def usageLines (program : String) : List String :=
  ["Usage:",
   "  " ++ program ++ " [OPTIONS] \"<program>\" \"<input>\"",
   "  " ++ program ++ " [OPTIONS] --file <PATH> \"<input>\"",
   "",
   "Options:",
   "  --file,  -f <PATH>     Read Brainfuck code from PATH instead of positional \"<program>\"",
   "  --input-file <PATH>    Read the input text from PATH instead of positional \"<input>\"",
   "  --max-steps <N>        Abort after N instructions (fallback BF_MAX_STEPS; default unlimited)",
   "  --memory <CELLS>       Memory tape length (fallback BF_MEMORY_SIZE; default 30000)",
   "  --interactive, -i      Ask for any limit not set by flags, environment or config",
   "  --debug, -d            Print a step-by-step table of operations instead of the output",
   "  --help,  -h            Show this help",
   "",
   "Notes:",
   "- Both a program and an input are required; pass \"\" for empty input.",
   "- Input (`,`) consumes the input text one character at a time; reading past its end is an error.",
   "- Any characters outside of Brainfuck's ><+-.,[] will result in an error.",
   "- Moving the pointer outside the memory tape is an error.",
   "- Limits may also be set in $XDG_CONFIG_HOME/bf.toml (or the file named by BF_CONFIG):",
   "    [limits]",
   "    max_steps = 100000",
   "    memory_size = 30000",
   "- Flags may come before or after the program and input.",
   "- Use -- before a program that starts with '-', e.g. " ++ program ++ " -- \"-.\" \"\"",
   "",
   "Examples:",
   "- Echo two characters:",
   "    " ++ program ++ " \",.,.\" \"hi\"",
   "- Load Brainfuck code from a file with a step limit:",
   "    " ++ program ++ " --max-steps 10000 --file ./program.bf \"\"",
   ""]

def usage (program : String) : String := String.join ((usageLines program).map (· ++ "\n"))

end Brainfuck
