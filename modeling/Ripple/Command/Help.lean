/-!
The help texts of the command line, line by line.
-/
namespace Ripple.Command.Help

def overview : List String :=
  ["Usage: impact [OPTIONS] COMMAND [ARGS]...",
    "",
    "  Cross-repository impact analyzer.",
    "",
    "  Detects which components a change touches in each configured repository and",
    "  which components in related repositories may be affected as a consequence.",
    "",
    "Options:",
    "  --version  Show the version and exit.",
    "  --help     Show this message and exit.",
    "",
    "Commands:",
    "  analyze   Analyze the impact of changes between two git refs.",
    "  init      Create a starter configuration file in the current directory.",
    "  validate  Validate a configuration file."]

def analyze : List String :=
  ["Usage: impact analyze [OPTIONS]",
    "",
    "  Analyze the impact of changes between two git refs.",
    "",
    "Options:",
    "  -c, --config PATH       Path to configuration file",
    "  -b, --base TEXT         Base git ref  [default: origin/develop]",
    "  --head TEXT             Head git ref  [default: HEAD]",
    "  -o, --output DIRECTORY  Output directory (defaults to output.directory from",
    "                          config)",
    "  -f, --format TEXT       Comma separated output formats: json, markdown, github",
    "  --help                  Show this message and exit."]

def validate : List String :=
  ["Usage: impact validate [OPTIONS]",
    "",
    "  Validate a configuration file.",
    "",
    "Options:",
    "  -c, --config PATH  Path to configuration file",
    "  --help             Show this message and exit."]

def init : List String :=
  ["Usage: impact init [OPTIONS]",
    "",
    "  Create a starter configuration file in the current directory.",
    "",
    "Options:",
    "  -f, --format [yaml|json]  Config file format  [default: yaml]",
    "  --help                    Show this message and exit."]

end Ripple.Command.Help
