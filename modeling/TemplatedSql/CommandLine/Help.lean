import TemplatedSql.CommandLine.Request

/-!
# Help texts

What the command says about itself.
-/

namespace TemplatedSql.CommandLine

/-- The name and the version of the command. -/
def versionText : String := "jinsql 0.1.0\n"

/-- The options that every command has. -/
def optionsHelp : String :=
  "Options:\n" ++
  "  -c, --config <CONFIG>    Path to config file (default: jinsql.toml)\n" ++
  "  -v, --verbose            Enable verbose output\n" ++
  "  -j, --threads <THREADS>  Number of worker threads (overrides the config file)\n" ++
  "  -h, --help               Print help\n"

/-- The help on a topic. -/
def Topic.text : Topic → String
  | program =>
    "jinsql - compile Jinja-templated SQL projects\n\n" ++
    "Usage: jinsql [OPTIONS] <COMMAND>\n\n" ++
    "Commands:\n" ++
    "  compile  Compile every model and test\n" ++
    "  show     Print the compiled SQL of one model\n" ++
    "  list     List discovered macros, models and tests\n" ++
    "  help     Print this message or the help of the given subcommand(s)\n\n" ++
    optionsHelp ++
    "  -V, --version            Print version\n"
  | compile =>
    "Compile every model and test\n\n" ++
    "Usage: jinsql compile [OPTIONS]\n\n" ++
    optionsHelp
  | showModel =>
    "Print the compiled SQL of one model\n\n" ++
    "Usage: jinsql show [OPTIONS] <MODEL>\n\n" ++
    "Arguments:\n" ++
    "  <MODEL>  Model name (file stem or any trailing part of its path)\n\n" ++
    optionsHelp
  | list =>
    "List discovered macros, models and tests\n\n" ++
    "Usage: jinsql list [OPTIONS]\n\n" ++
    optionsHelp
  | help =>
    "Print this message or the help of the given subcommand(s)\n\n" ++
    "Usage: jinsql help [COMMAND]...\n\n" ++
    "Arguments:\n" ++
    "  [COMMAND]...  Print help for the subcommand(s)\n"

/-- What is said to a command line that makes no sense. -/
def usageText : String :=
  "error: the arguments are not understood\n\n" ++
  "Usage: jinsql [OPTIONS] <COMMAND>\n\n" ++
  "For more information, try '--help'.\n"

end TemplatedSql.CommandLine
